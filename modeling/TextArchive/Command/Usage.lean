import TextArchive.Command.Parameter

/-!
What can be wrong with a command line, and the messages about it.
-/

set_option autoImplicit false
set_option relaxedAutoImplicit false

namespace TextArchive.Command

inductive BadValue where
  | noDigit
  | emptyCount
  | tooLarge
  | noDecimal
  | emptyDecimal
deriving DecidableEq, Repr

def BadValue.message : BadValue → String
  | .noDigit => "invalid digit found in string"
  | .emptyCount => "cannot parse integer from empty string"
  | .tooLarge => "number too large to fit in target type"
  | .noDecimal => "invalid float literal"
  | .emptyDecimal => "cannot parse float from empty string"

/-- A command line that cannot be understood. -/
inductive UsageError where
  | unexpected (text : String)
  /-- A value for something that takes none. -/
  | unneededValue (shown value : String)
  | repeated (parameter : Parameter)
  | missingValue (parameter : Parameter)
  | badValue (parameter : Parameter) (value : String) (reason : BadValue)
  | missingParameters (parameters : List Parameter)
  | unknownSubcommand (text : String)
  | missingSubcommand
deriving DecidableEq, Repr

def UsageError.message : UsageError → String
  | .unexpected text => "unexpected argument '" ++ text ++ "' found"
  | .unneededValue shown value =>
    "unexpected value '" ++ value ++ "' for '" ++ shown ++ "' found; no more were expected"
  | .repeated p => "the argument '" ++ p.shown ++ "' cannot be used multiple times"
  | .missingValue p => "a value is required for '" ++ p.shown ++ "' but none was supplied"
  | .badValue p value reason =>
    "invalid value '" ++ value ++ "' for '" ++ p.shown ++ "': " ++ reason.message
  | .missingParameters ps =>
    String.intercalate "\n  "
    ("the following required arguments were not provided:" :: ps.map (·.shown))
  | .unknownSubcommand text => "unrecognized subcommand '" ++ text ++ "'"
  | .missingSubcommand =>
    "'" ++ programName ++ "' requires a subcommand but one was not provided"

end TextArchive.Command
