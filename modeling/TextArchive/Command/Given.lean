import TextArchive.Command.Usage
import TextArchive.Number.Literal

/-!
The values that a command line gives to parameters. A parameter takes one value, except for the rank
weights, which add up over the command line.
-/

set_option autoImplicit false
set_option relaxedAutoImplicit false

namespace TextArchive.Command

open TextArchive.File (Path)

structure Given where
  db : Option Path := none
  root : Option Path := none
  batchSize : Option Nat := none
  maxFiles : Option Nat := none
  limitBytes : Option Nat := none
  tag : Option String := none
  collection : Option String := none
  tokenizer : Option String := none
  rankWeights : Option (List Float) := none
  query : Option String := none
  topK : Option Nat := none
  json : Bool := false
  verbose : Bool := false

/-- Counts are smaller than this. -/
def countLimit : Nat := 2 ^ 64

def countAfter : Nat → List Char → Except BadValue Nat
  | n, [] => .ok n
  | n, c :: cs =>
    if c.isDigit then
      let next := 10 * n + Number.Literal.digitValue c
      if countLimit ≤ next then .error .tooLarge else countAfter next cs
    else .error .noDigit

def readCount (text : List Char) : Except BadValue Nat :=
  match text with
  | [] => .error .emptyCount
  | ['+'] => .error .noDigit
  | '+' :: digits => countAfter 0 digits
  | digits => countAfter 0 digits

def readDecimal (text : List Char) : Except BadValue Float :=
  match Number.Literal.parse? text with
  | some x => .ok x
  | none => .error (if text.isEmpty then .emptyDecimal else .noDecimal)

namespace Given

def has (g : Given) : Parameter → Bool
  | .db => g.db.isSome
  | .root => g.root.isSome
  | .batchSize => g.batchSize.isSome
  | .maxFiles => g.maxFiles.isSome
  | .limitBytes => g.limitBytes.isSome
  | .tag => g.tag.isSome
  | .collection => g.collection.isSome
  | .tokenizer => g.tokenizer.isSome
  | .rankWeights => g.rankWeights.isSome
  | .query => g.query.isSome
  | .topK => g.topK.isSome
  | .json => g.json
  | .verbose => g.verbose

def count (p : Parameter) (text : String) : Except UsageError Nat :=
  (readCount text.toList).mapError (.badValue p text)

def path (p : Parameter) (text : String) : Except UsageError Path :=
  if text.isEmpty then .error (.missingValue p) else .ok (.ofString text)

def decimals (p : Parameter) (text : String) : Except UsageError (List Float) :=
  (Text.Split.pieces (· = ',') text.toList).mapM fun piece =>
    (readDecimal piece).mapError (.badValue p (String.ofList piece))

/-- Give a value to a parameter, or raise a flag. -/
def set (g : Given) (p : Parameter) (text : String) : Except UsageError Given :=
  match p with
  | .db => do return { g with db := some (← path p text) }
  | .root => do return { g with root := some (← path p text) }
  | .batchSize => do return { g with batchSize := some (← count p text) }
  | .maxFiles => do return { g with maxFiles := some (← count p text) }
  | .limitBytes => do return { g with limitBytes := some (← count p text) }
  | .tag => .ok { g with tag := some text }
  | .collection => .ok { g with collection := some text }
  | .tokenizer => .ok { g with tokenizer := some text }
  | .rankWeights => do
    return { g with rankWeights := some (g.rankWeights.getD [] ++ (← decimals p text)) }
  | .query => .ok { g with query := some text }
  | .topK => do return { g with topK := some (← count p text) }
  | .json => .ok { g with json := true }
  | .verbose => .ok { g with verbose := true }

/-- Give a value to a parameter on the command line: twice only where values add up. -/
def add (g : Given) (p : Parameter) (text : String) : Except UsageError Given :=
  if g.has p && p.kind ≠ .decimals then .error (.repeated p) else g.set p text

/-- Give a parameter that is still without a value that of its variable. -/
def addVariable (environment : Environment) (g : Given) (p : Parameter) :
    Except UsageError Given :=
  match p.variableName?.bind fun name => environment.lookup name with
  | some text => if g.has p then .ok g else g.set p text
  | none => .ok g

end Given

end TextArchive.Command
