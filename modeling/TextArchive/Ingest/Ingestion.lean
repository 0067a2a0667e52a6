import TextArchive.File.Walk
import TextArchive.Ingest.Batch
import TextArchive.Ingest.Maintenance
import TextArchive.Ingest.Options
import TextArchive.Ingest.Outcome

/-!
Ingestion: files are taken one by one, a record is built of each and written in batches, and in the
end the index is maintained. A batch that is refused ends the ingestion; a file that cannot be read
does not.
-/

set_option autoImplicit false
set_option relaxedAutoImplicit false

namespace TextArchive.Ingest

open TextArchive.File (Disk Path Visit)

/-- What a source of files gives next: a file, or something to log on the way to the next one. -/
inductive SourceItem where
  | file (path : Path)
  | note (event : Event)
deriving DecidableEq, Repr

def SourceItem.ofVisit? (root : Path) : Visit → Option SourceItem
  | .file path => some (.file path)
  | .failed path error => some (.note (.entrySkipped root path error))
  | .nothing => none

def SourceItem.file? : SourceItem → Option Path
  | .file path => some path
  | .note _ => none

structure Report where
  /-- Files taken, whether they could be read or not. -/
  total : Nat
  /-- Records committed. -/
  inserted : Nat
  batches : Nat
  readFailures : Nat
  maintenance : MaintenanceReport
deriving DecidableEq, Repr

/-- An ingestion under way: the writer, the files taken and the failures to read them. -/
structure Progress where
  writer : BatchWriter
  total : Nat
  readFailures : Nat
deriving DecidableEq, Repr

namespace Ingestion

variable {σ : Type} [FullTextCollection σ]

def readEvents (built : BuiltRecord) : List Event :=
  (built.readFailure.map fun f => Event.fileUnreadable f.path f.error).toList

/-- Take one built record: count it and write it. -/
def takeRecord (built : BuiltRecord) (p : Progress) (collection : σ) : Outcome σ Progress :=
  let total := p.total + 1
  let readFailures := p.readFailures + (if built.readFailure.isSome then 1 else 0)
  match p.writer.push collection built.record with
  | (.error e, _, collection) => ⟨readEvents built, collection, .error e⟩
  | (.ok none, writer, collection) =>
    ⟨readEvents built, collection, .ok ⟨writer, total, readFailures⟩⟩
  | (.ok (some size), writer, collection) =>
    ⟨readEvents built ++ [.batchCommitted size writer.inserted total], collection,
      .ok ⟨writer, total, readFailures⟩⟩

def limitReached (maxFiles : Option Nat) (total : Nat) : Bool :=
  match maxFiles with
  | none => false
  | some most => most ≤ total

/-- Take files until the source ends, the limit is reached or a batch is refused. -/
def takeFiles (maxFiles : Option Nat) (build : Path → BuiltRecord) :
    List SourceItem → Progress → σ → Outcome σ Progress
  | [], p, collection => ⟨[], collection, .ok p⟩
  | .note event :: items, p, collection =>
    (takeFiles maxFiles build items p collection).after [event]
  | .file path :: items, p, collection =>
    if limitReached maxFiles p.total then ⟨[.fileLimitReached p.total], collection, .ok p⟩
    else
      match takeRecord (build path) p collection with
      | ⟨events, collection, .error e⟩ => ⟨events, collection, .error e⟩
      | ⟨events, collection, .ok p⟩ =>
        (takeFiles maxFiles build items p collection).after events

/-- Write what is left below the size of a batch. -/
def finishBatches (p : Progress) (collection : σ) : Outcome σ Progress :=
  match p.writer.finish collection with
  | (.error e, _, collection) => ⟨[], collection, .error e⟩
  | (.ok none, writer, collection) => ⟨[], collection, .ok { p with writer }⟩
  | (.ok (some size), writer, collection) =>
    ⟨[.finalBatchCommitted size writer.inserted p.total], collection, .ok { p with writer }⟩

def conclude (weights : Weights) (p : Progress) (collection : σ) : Outcome σ Report :=
  let (events, maintenance, collection) := Maintenance.run weights collection
  ⟨events ++ [.ingestionFinished p.total p.writer.inserted p.readFailures], collection,
    .ok ⟨p.total, p.writer.inserted, p.writer.batches, p.readFailures, maintenance⟩⟩

def ingest (options : Options) (build : Path → BuiltRecord) (source : List SourceItem)
    (collection : σ) :
    Outcome σ Report :=
  let started := [Event.ingestionStarted options.batchSize]
  match BatchWriter.start options.batchSize with
  | .error e => ⟨started, collection, .error e⟩
  | .ok writer =>
    (((takeFiles options.maxFiles build source ⟨writer, 0,
      0⟩ collection).andThen finishBatches).andThen
      (conclude options.weights)).after started

def builder (options : Options) : RecordBuilder :=
  ⟨options.tag, options.limitBytes⟩

end Ingestion

end TextArchive.Ingest
