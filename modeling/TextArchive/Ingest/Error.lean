import TextArchive.File.Path
import TextArchive.Store.Error
import TextArchive.Text.Quoted
import TextArchive.Weights

/-!
Why ingestion or opening a store fails, and the steps of index maintenance.
-/

set_option autoImplicit false
set_option relaxedAutoImplicit false

namespace TextArchive.Ingest

open TextArchive.File (Path)
open TextArchive.Store (StoreError)

inductive MaintenanceStep where
  | setRank
  | rebuild
  | optimize
deriving DecidableEq, Repr

def MaintenanceStep.order : List MaintenanceStep := [.setRank, .rebuild, .optimize]

def MaintenanceStep.name : MaintenanceStep → String
  | .setRank => "rank"
  | .rebuild => "rebuild"
  | .optimize => "optimize"

inductive InvalidArgument where
  | zeroBatchSize
  | unboundedWeights (weights : Weights)
  | collectionName (name : String)
  | tokenizer (specification : String)

def InvalidArgument.message : InvalidArgument → String
  | .zeroBatchSize => "batch size must be at least 1"
  | .unboundedWeights w => "rank weights must be finite numbers, got " ++ w.describe
  | .collectionName name =>
    "collection name must match [A-Za-z_][A-Za-z0-9_]*: " ++ Text.Quoted.quote name
  | .tokenizer specification =>
    "invalid tokenizer specification: " ++ Text.Quoted.quote specification

inductive IngestError where
  | rootNotFound (root : Path)
  | storeUnavailable (path : Path) (source : StoreError)
  | collectionNotFound (path : Path) (collection : String)
  | writeFailed (source : StoreError)
  | maintenanceFailed (step : MaintenanceStep) (source : StoreError)
  | invalidArgument (argument : InvalidArgument)
  /-- The end of the whole program over a batch for which no room can be made. -/
  | capacityOverflow

namespace IngestError

def message : IngestError → String
  | .rootNotFound root => "root folder does not exist or is not a directory: " ++ root.display
  | .storeUnavailable path source =>
    "store unavailable at " ++ path.display ++ ": " ++ source.message
  | .collectionNotFound path collection =>
    "collection \x60" ++ collection ++ "\x60 does not exist in " ++ path.display
  | .writeFailed source => "batch write failed, batch rolled back: " ++ source.message
  | .maintenanceFailed step source =>
    "index maintenance step \x60" ++ step.name ++ "\x60 failed: " ++ source.message
  | .invalidArgument argument => "invalid argument: " ++ argument.message
  | .capacityOverflow => "capacity overflow"

/-- The refusal of the database behind a failure. -/
def source? : IngestError → Option StoreError
  | .storeUnavailable _ source => some source
  | .writeFailed source => some source
  | .maintenanceFailed _ source => some source
  | _ => none

end IngestError

end TextArchive.Ingest
