import TextArchive.Command.Failure
import TextArchive.Command.Help
import TextArchive.Command.Listing
import TextArchive.Ingest.Run
import TextArchive.Search.Cursor

/-!
Answering a command line: the request is carried out on a storage, and what comes of it is printed.
-/

set_option autoImplicit false
set_option relaxedAutoImplicit false

namespace TextArchive.Command

open TextArchive.Ingest (Event IngestError Report)
open TextArchive.Store (Engine Storage)

/-- What the program leaves behind: its exit code and what it prints. -/
structure Output where
  code : Nat
  stdout : String := ""
  stderr : String := ""
deriving DecidableEq, Repr

def Interruption.output (environment : Environment) : Interruption → Output
  | .help topic => { code := 0, stdout := Help.text environment topic }
  | .version => { code := 0, stdout := programName ++ " " ++ programVersion ++ "\n" }
  | .nothingAsked => { code := 2, stderr := Help.text environment .program }
  | .usage error => { code := 2, stderr := "error: " ++ error.message ++ "\n" }

inductive Result where
  | ingested (report : Report)
  | found (hits : List Hit) (json : Bool)
  | failed (failure : Failure)

namespace Result

/-- The lines about an ingestion that took the given time. -/
def summary (r : Report) (elapsed : String) : String :=
  (if r.readFailures = 0 then ""
    else toString r.readFailures
      ++ " file(s) could not be read and were stored with an error placeholder\n")
    ++ "done: processed " ++ toString r.total ++ " files, inserted " ++ toString r.inserted
    ++ " records in " ++ elapsed ++ "s\n"

def output (elapsed : String) : Result → Output
  | .ingested r => { code := 0, stdout := summary r elapsed }
  | .found hits true => { code := 0, stdout := Listing.json hits }
  | .found hits false => { code := 0, stdout := Listing.plain hits }
  | .failed f => { code := f.code, stderr := f.report }

end Result

structure Answer where
  events : List Event
  result : Result
  storage : Storage

def weightsOf (r : IngestTask) : Except Failure Weights :=
  match r.rankWeights with
  | none => .ok .standard
  | some [title, sourcePath, content, tag] =>
    (Ingest.checkWeights ⟨title, sourcePath, content, tag⟩).mapError fun e =>
      .refused (.invalidArgument e)
  | some weights => .error (.weightCount weights.length)

def answerIngest [Engine] (s : Storage) (r : IngestTask) : Answer :=
  match weightsOf r with
  | .error f => ⟨[], .failed f, s⟩
  | .ok weights =>
    let o := Ingest.Ingestion.run { r.options with weights } r.root r.db r.config s
    match o.result with
    | .ok report => ⟨o.events, .ingested report, o.state⟩
    | .error e => ⟨o.events, .failed (.ingestion r.db e), o.state⟩

def answerSearch (s : Storage) (r : SearchTask) : Answer :=
  if s.shown.isFile r.db then
    let o := s.connectExisting r.db r.collection
    match o.result with
    | .error e => ⟨o.events, .failed (.refused e), o.state⟩
    | .ok connection =>
      let result :=
        match (searchAfter 0 (o.state.database connection.key) connection.collection
          r.query r.topK).1 with
        | .ok hits => .found hits r.json
        | .error e => .failed (.search e)
      ⟨o.events, result, o.state.disconnect connection⟩
  else ⟨[], .failed (.noDatabase r.db), s⟩

def Request.answer [Engine] (r : Request) (s : Storage) : Answer :=
  match r.task with
  | .ingest task => answerIngest s task
  | .search task => answerSearch s task

end TextArchive.Command
