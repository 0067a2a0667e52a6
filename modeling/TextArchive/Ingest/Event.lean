import TextArchive.File.Error
import TextArchive.Ingest.Error

/-!
Events of the log: what happened, how much it matters, and its line of text.
-/

set_option autoImplicit false
set_option relaxedAutoImplicit false

namespace TextArchive.Ingest

open TextArchive.File (FileError Path)
open TextArchive.Store (StoreError)

inductive Level where
  | debug
  | info
  | warn
deriving DecidableEq, Repr

def Level.name : Level → String
  | .debug => "DEBUG"
  | .info => "INFO"
  | .warn => "WARN"

inductive Event where
  | entrySkipped (root path : Path) (error : FileError)
  | fileUnreadable (path : Path) (error : FileError)
  | ingestionStarted (batchSize : Nat)
  | fileLimitReached (maxFiles : Nat)
  | batchCommitted (size inserted processed : Nat)
  | finalBatchCommitted (size inserted processed : Nat)
  | stepDone (step : MaintenanceStep)
  | stepFailed (step : MaintenanceStep) (error : StoreError)
  | ingestionFinished (total inserted readFailures : Nat)
  | journalModeNotApplied (requested effective : String)
  | pragmasApplied (journalMode synchronous tempStore : String)
  | storeReady (path : Path) (collection tokenizer : String)
deriving DecidableEq, Repr

namespace Event

def level : Event → Level
  | .entrySkipped .. => .warn
  | .fileUnreadable .. => .warn
  | .stepFailed .. => .warn
  | .journalModeNotApplied .. => .warn
  | .pragmasApplied .. => .debug
  | _ => .info

def title : Event → String
  | .entrySkipped .. => "skipping unreadable entry"
  | .fileUnreadable .. => "unable to read file"
  | .ingestionStarted .. => "ingestion started"
  | .fileLimitReached .. => "file limit reached"
  | .batchCommitted .. => "batch committed"
  | .finalBatchCommitted .. => "final batch committed"
  | .stepDone .. => "index maintenance step done"
  | .stepFailed .. => "index maintenance step failed"
  | .ingestionFinished .. => "ingestion finished"
  | .journalModeNotApplied .. => "journal mode not applied, durability guarantees are weaker"
  | .pragmasApplied .. => "pragmas applied"
  | .storeReady .. => "store ready"

def fields : Event → List (String × String)
  | .entrySkipped root path error =>
    [("root", root.display),
     ("error", "IO error for operation on " ++ path.display ++ ": " ++ error.message)]
  | .fileUnreadable path error => [("path", path.display), ("error", error.message)]
  | .ingestionStarted batchSize => [("batch_size", toString batchSize)]
  | .fileLimitReached maxFiles => [("max_files", toString maxFiles)]
  | .batchCommitted size inserted processed =>
    [("batch", toString size), ("inserted", toString inserted), ("processed", toString processed)]
  | .finalBatchCommitted size inserted processed =>
    [("batch", toString size), ("inserted", toString inserted), ("processed", toString processed)]
  | .stepDone step => [("step", step.name)]
  | .stepFailed step error => [("step", step.name), ("error", error.message)]
  | .ingestionFinished total inserted readFailures =>
    [("total", toString total), ("inserted", toString inserted),
     ("read_failures", toString readFailures)]
  | .journalModeNotApplied requested effective =>
    [("requested", requested), ("effective", effective)]
  | .pragmasApplied journalMode synchronous tempStore =>
    [("journal_mode", journalMode), ("synchronous", synchronous), ("temp_store", tempStore)]
  | .storeReady path collection tokenizer =>
    [("path", path.display), ("collection", collection), ("tokenizer", tokenizer)]

def line (e : Event) : String :=
  String.intercalate " "
    (e.level.name :: e.title :: e.fields.map fun f => f.1 ++ "=" ++ f.2)

end Event

end TextArchive.Ingest
