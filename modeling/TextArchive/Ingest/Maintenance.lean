import TextArchive.Ingest.Collection
import TextArchive.Ingest.Event

/-!
Index maintenance: the rank weights are set, the index is built anew and optimized. Every step is
tried once, whatever became of those before it.
-/

set_option autoImplicit false
set_option relaxedAutoImplicit false

namespace TextArchive.Ingest

open TextArchive.Store (StoreError)

structure StepFailure where
  step : MaintenanceStep
  source : StoreError
deriving DecidableEq, Repr

/-- A failed step as the failure that is reported. -/
def StepFailure.toError (f : StepFailure) : IngestError :=
  .maintenanceFailed f.step f.source

structure MaintenanceReport where
  completed : List MaintenanceStep
  failures : List StepFailure
deriving DecidableEq, Repr

def MaintenanceReport.isClean (r : MaintenanceReport) : Bool := r.failures.isEmpty

structure StepOutcome where
  step : MaintenanceStep
  result : Except StoreError Unit

namespace StepOutcome

def completed? (o : StepOutcome) : Option MaintenanceStep :=
  match o.result with
  | .ok () => some o.step
  | .error _ => none

def failure? (o : StepOutcome) : Option StepFailure :=
  match o.result with
  | .ok () => none
  | .error e => some ⟨o.step, e⟩

def event (o : StepOutcome) : Event :=
  match o.result with
  | .ok () => .stepDone o.step
  | .error e => .stepFailed o.step e

end StepOutcome

namespace Maintenance

variable {σ : Type} [FullTextCollection σ]

def take (weights : Weights) (collection : σ) : MaintenanceStep → Except StoreError Unit × σ
  | .setRank => FullTextCollection.setRank collection weights
  | .rebuild => FullTextCollection.rebuild collection
  | .optimize => FullTextCollection.optimize collection

def takeAll (weights : Weights) : List MaintenanceStep → σ → List StepOutcome × σ
  | [], collection => ([], collection)
  | step :: steps, collection =>
    let (result, collection) := take weights collection step
    let (outcomes, collection) := takeAll weights steps collection
    (⟨step, result⟩ :: outcomes, collection)

def report (outcomes : List StepOutcome) : MaintenanceReport :=
  ⟨outcomes.filterMap StepOutcome.completed?, outcomes.filterMap StepOutcome.failure?⟩

def run (weights : Weights) (collection : σ) : List Event × MaintenanceReport × σ :=
  let (outcomes, collection) := takeAll weights MaintenanceStep.order collection
  (outcomes.map StepOutcome.event, report outcomes, collection)

end Maintenance

end TextArchive.Ingest
