import TextArchive.Command.Request
import TextArchive.Text.Blank
import TextArchive.Text.Quoted

/-!
Help texts: for the program, for its subcommands with the variables of the environment as they are
set, and for the word that asks for help.
-/

set_option autoImplicit false
set_option relaxedAutoImplicit false

namespace TextArchive.Command.Help

/-- An entry of a list: what it is about, and what is said of it. -/
structure Entry where
  label : String
  text : String
deriving DecidableEq, Repr

def padded (width : Nat) (s : String) : String :=
  s ++ String.ofList (List.replicate (width - s.length) ' ')

/-- The lines of a list: what is said starts in one column. -/
def lines (entries : List Entry) : List String :=
  let width := (entries.map (·.label.length)).foldl max 0
  entries.map fun e => "  " ++ padded width e.label ++ "  " ++ e.text

def block (heading : String) (entries : List Entry) : String :=
  String.intercalate "\n" (heading :: lines entries)

/-- A standard value as help shows it: in quotes if it is empty or has blanks in it. -/
def shownStandard (text : String) : String :=
  if text.isEmpty || text.toList.any Text.isBlank then Text.Quoted.quote text else text

def variableNote (environment : Environment) (p : Parameter) : String :=
  (p.variableName?.map fun name =>
    " [env: " ++ name ++ "=" ++ (environment.lookup name).getD "" ++ "]").getD ""

def standardNote (p : Parameter) : String :=
  (p.standard?.map fun text => " [default: " ++ shownStandard text ++ "]").getD ""

def parameterEntry (environment : Environment) (s : Subcommand) (p : Parameter) : Entry :=
  ⟨"    " ++ p.shown, s.summaryOf p ++ variableNote environment p ++ standardNote p⟩

def helpEntry : Entry := ⟨"-h, --help", "Print help"⟩

def subcommandText (environment : Environment) (s : Subcommand) : List String :=
  [s.summary,
    "Usage: " ++ String.intercalate " "
      ([programName, s.name, "[OPTIONS]"] ++ s.required.map (·.shown)),
    block "Options:" (s.parameters.map (parameterEntry environment s) ++ [helpEntry])]

def helpSummary : String := "Print this message or the help of the given subcommand(s)"

def programText : List String :=
  ["Usage: " ++ programName ++ " [OPTIONS] <COMMAND>",
    block "Commands:"
      (Subcommand.all.map (fun s => ⟨s.name, s.summary⟩) ++ [⟨"help", helpSummary⟩]),
    block "Options:"
      [⟨"    --verbose", Parameter.verbose.summary⟩, helpEntry, ⟨"-V, --version", "Print version"⟩],
    "Examples:\n  " ++ programName
      ++ " ingest --db quotes.db --root ./docs --batch-size 500 --verbose\n  " ++ programName
      ++ " search --db quotes.db --query 'pump AND valve'"]

def helpText : List String :=
  [helpSummary, "Usage: " ++ programName ++ " help [COMMAND]...",
    block "Arguments:" [⟨"[COMMAND]...", "Print help for the subcommand(s)"⟩]]

def text (environment : Environment) (topic : Topic) : String :=
  let paragraphs :=
    match topic with
    | .program => programText
    | .subcommand s => subcommandText environment s
    | .help => helpText
  String.intercalate "\n\n" paragraphs ++ "\n"

end TextArchive.Command.Help
