import TextArchive.Command.Given

/-!
Requests: what a command line asks the program to do. Values that stand apart from their parameter
are looked at when the next parameter has been recognised, so an argument that nobody knows is
reported before them.
-/

set_option autoImplicit false
set_option relaxedAutoImplicit false

namespace TextArchive.Command

open TextArchive.File (Path)

/-- What an argument looks like. -/
inductive Word where
  /-- Two hyphens: no parameters follow. -/
  | separator
  /-- A parameter, perhaps with a value attached. -/
  | long (name : String) (value : Option String)
  /-- A hyphen and letters, each of which stands for itself. -/
  | short (letters : List Char)
  | plain (text : String)
deriving DecidableEq, Repr

def Word.ofText (text : String) : Word :=
  match text.toList with
  | ['-', '-'] => .separator
  | '-' :: '-' :: rest =>
    .long (String.ofList (rest.takeWhile (· ≠ '=')))
      (((rest.dropWhile (· ≠ '=')).tail?).map String.ofList)
  | '-' :: letter :: letters => .short (letter :: letters)
  | _ => .plain text

inductive Topic where
  | program
  | subcommand (s : Subcommand)
  | help
deriving DecidableEq, Repr

/-- Why there is nothing to do after a command line has been read. -/
inductive Interruption where
  | help (topic : Topic)
  | version
  /-- Nothing has been asked for. -/
  | nothingAsked
  | usage (error : UsageError)
deriving DecidableEq, Repr

structure IngestTask where
  db : Path
  root : Path
  options : Ingest.Options
  /-- The weights as they are given, whatever their number. -/
  rankWeights : Option (List Float)
  config : Store.Config

structure SearchTask where
  db : Path
  query : String
  topK : Nat
  collection : String
  json : Bool

inductive Task where
  | ingest (task : IngestTask)
  | search (task : SearchTask)

structure Request where
  task : Task
  verbose : Bool

/-- A parameter that waits for its value, or whose value has not been looked at. -/
structure Pending where
  parameter : Parameter
  value : Option String
deriving DecidableEq, Repr

structure Reading where
  given : Given
  pending : Option Pending

namespace Reading

/-- Look at the value that has not been looked at. -/
def settle (r : Reading) : Except Interruption Given :=
  match r.pending with
  | none => .ok r.given
  | some ⟨p, none⟩ => .error (.usage (.missingValue p))
  | some ⟨p, some text⟩ => (r.given.add p text).mapError .usage

def readLong (s : Subcommand) (r : Reading) (name : String) (value : Option String) :
    Except Interruption Reading :=
  if name = "help" then
    match value with
    | some text => .error (.usage (.unneededValue "--help" text))
    | none => do
      let _ ← r.settle
      throw (.help (.subcommand s))
  else
    match s.parameter? name with
    | none => .error (.usage (.unexpected ("--" ++ name)))
    | some p =>
      match p.kind, value with
      | .flag, some text => .error (.usage (.unneededValue p.shown text))
      | .flag, none => do return ⟨← ((← r.settle).add p "").mapError .usage, none⟩
      | _, some text => do return ⟨← ((← r.settle).add p text).mapError .usage, none⟩
      | _, none => do return ⟨← r.settle, some ⟨p, none⟩⟩

/-- Read letters: only help has one in a subcommand. -/
def readShort (s : Subcommand) (r : Reading) : List Char → Except Interruption Reading
  | [] => .ok r
  | c :: _ =>
    if c = 'h' then do
      let _ ← r.settle
      throw (.help (.subcommand s))
    else .error (.usage (.unexpected (String.ofList ['-', c])))

/-- Read a text that is no parameter: the value that is waited for. -/
def readPlain (r : Reading) (text : String) : Except Interruption Reading :=
  match r.pending with
  | some ⟨p, none⟩ => .ok ⟨r.given, some ⟨p, some text⟩⟩
  | _ => .error (.usage (.unexpected text))

def readAll (s : Subcommand) : Reading → List String → Except Interruption Given
  | r, [] => r.settle
  | r, text :: rest =>
    match Word.ofText text with
    | .separator =>
      match rest with
      | [] => r.settle
      | next :: _ => .error (.usage (.unexpected next))
    | .long name value => do readAll s (← r.readLong s name value) rest
    | .short letters => do readAll s (← r.readShort s letters) rest
    | .plain text => do readAll s (← r.readPlain text) rest

end Reading

namespace Request

def givenTo (s : Subcommand) (environment : Environment) (arguments : List String) :
    Except Interruption Given := do
  let given ← Reading.readAll s ⟨{}, none⟩ arguments
  (s.parameters.foldlM (Given.addVariable environment) given).mapError .usage

def missing (s : Subcommand) (g : Given) : List Parameter :=
  s.required.filter (!g.has ·)

def ingestOf (g : Given) (db root : Path) : IngestTask :=
  { db
    root
    options :=
      { batchSize := g.batchSize.getD Ingest.standardBatchSize
        maxFiles := g.maxFiles
        limitBytes := g.limitBytes
        tag := g.tag.getD Ingest.standardTag }
    rankWeights := g.rankWeights
    config :=
      { collection := g.collection.getD Store.standardCollection
        tokenizer := g.tokenizer.getD Store.standardTokenizer } }

def searchOf (g : Given) (db : Path) : SearchTask :=
  { db
    query := g.query.getD ""
    topK := g.topK.getD Search.standardTopK
    collection := g.collection.getD Store.standardCollection
    json := g.json }

/-- The request that values make of a subcommand, if nothing required is missing. -/
def ofGiven (s : Subcommand) (g : Given) : Except Interruption Request :=
  match s, g.db, g.root with
  | .ingest, some db, some root => .ok ⟨.ingest (ingestOf g db root), g.verbose⟩
  | .search, some db, _ => .ok ⟨.search (searchOf g db), g.verbose⟩
  | _, _, _ => .error (.usage (.missingParameters (missing s g)))

/-- The request of the arguments of a subcommand, before which progress may have been asked for. -/
def ofSubcommand (s : Subcommand) (environment : Environment) (verbose : Bool)
    (arguments : List String) : Except Interruption Request := do
  let given ← givenTo s environment arguments
  ofGiven s { given with verbose := verbose || given.verbose }

def topicOf : List String → Except Interruption Topic
  | [] => .ok .program
  | text :: rest =>
    match Subcommand.ofName? text, rest with
    | some s, [] => .ok (.subcommand s)
    | some _, next :: _ => .error (.usage (.unknownSubcommand next))
    | none, rest =>
      if text = "help" then
        match rest with
        | [] => .ok .help
        | next :: _ => .error (.usage (.unknownSubcommand next))
      else .error (.usage (.unknownSubcommand text))

/-- The error of an argument after the separator, where no subcommand can stand. -/
def afterSeparator (text : String) : UsageError :=
  if text = "help" || (Subcommand.ofName? text).isSome then .unexpected text else
    .unknownSubcommand text

def ofLetters : List Char → Interruption
  | 'h' :: _ => .help .program
  | 'V' :: _ => .version
  | c :: _ => .usage (.unexpected (String.ofList ['-', c]))
  | [] => .nothingAsked

/-- What the end of the arguments means if no subcommand has come. -/
def atEnd (verbose : Bool) : Interruption :=
  if verbose then .usage .missingSubcommand else .nothingAsked

/-- What a parameter asks of the program itself, if it is not the one that may stand before a
subcommand. -/
def ofLong (verbose : Bool) (name : String) (value : Option String) : Option Interruption :=
  match name, value with
  | "verbose", none => if verbose then some (.usage (.repeated .verbose)) else none
  | "help", none => some (.help .program)
  | "version", none => some .version
  | _, some text =>
    if ["verbose", "help", "version"].contains name then
      some (.usage (.unneededValue ("--" ++ name) text))
    else some (.usage (.unexpected ("--" ++ name)))
  | _, none => some (.usage (.unexpected ("--" ++ name)))

/-- The request of arguments, after some that may have asked for progress to be logged. -/
def ofArguments (environment : Environment) : Bool → List String → Except Interruption Request
  | verbose, [] => .error (atEnd verbose)
  | verbose, text :: rest =>
    match Word.ofText text with
    | .separator =>
      match rest with
      | [] => .error (atEnd verbose)
      | next :: _ => .error (.usage (afterSeparator next))
    | .long name value =>
      match ofLong verbose name value with
      | some stop => .error stop
      | none => ofArguments environment true rest
    | .short letters => .error (ofLetters letters)
    | .plain text =>
      match Subcommand.ofName? text with
      | some s => ofSubcommand s environment verbose rest
      | none =>
        if text = "help" then do throw (.help (← topicOf rest))
        else .error (.usage (.unknownSubcommand text))

def read (environment : Environment) (arguments : List String) : Except Interruption Request :=
  ofArguments environment false arguments

end Request

end TextArchive.Command
