import TextArchive.Proofs.Ingest.Handover

/-!
Index maintenance as a best effort: whatever a collection is and whichever of its commands it
refuses, each step is asked for once, in order, and is reported as completed or as failed with the
answer of the collection. An ingestion that has had all of its batches taken succeeds whatever
becomes of the steps.
-/

set_option autoImplicit false
set_option relaxedAutoImplicit false

namespace TextArchive.Ingest

open TextArchive.File (Path)
open TextArchive.Store (StoreError)

def StepOutcome.call (o : StepOutcome) : Call :=
  .step o.step o.result

namespace Maintenance

section Report

variable (outcomes : List StepOutcome)

private theorem completed_report :
    (report outcomes).completed = (outcomes.filter (·.result.isOk)).map (·.step) := by
  show outcomes.filterMap StepOutcome.completed? = _
  induction outcomes with
  | nil => rfl
  | cons o outcomes ih =>
    obtain ⟨step, result⟩ := o
    cases result with
    | error e => exact ih
    | ok _ => exact congrArg (step :: ·) ih

private theorem failures_report :
    (report outcomes).failures.map (fun f => (f.step, Except.error f.source)) =
      (outcomes.filter (!·.result.isOk)).map fun o => (o.step, o.result) := by
  show (outcomes.filterMap StepOutcome.failure?).map _ = _
  induction outcomes with
  | nil => rfl
  | cons o outcomes ih =>
    obtain ⟨step, result⟩ := o
    cases result with
    | error e => exact congrArg ((step, .error e) :: ·) ih
    | ok _ => exact ih

end Report

variable {σ : Type} [FullTextCollection σ]

private theorem calls_take (weights : Weights) (r : Recorded σ) (step : MaintenanceStep) :
    (take weights r step).2.calls = r.calls ++ [.step step (take weights r step).1] := by
  cases step <;> rfl

theorem calls_takeAll (weights : Weights) (steps : List MaintenanceStep) (r : Recorded σ) :
    (takeAll weights steps r).2.calls = r.calls ++
    (takeAll weights steps r).1.map StepOutcome.call := by
  induction steps generalizing r with
  | nil => exact (List.append_nil _).symm
  | cons step steps ih =>
    simp only [takeAll, ih, calls_take, List.map_cons, List.append_assoc]
    rfl

/-- What a collection answers to a step when the steps are taken in order. -/
def answer (weights : Weights) (c : σ) : MaintenanceStep → Except StoreError Unit
  | .setRank => (FullTextCollection.setRank c weights).1
  | .rebuild => (FullTextCollection.rebuild (FullTextCollection.setRank c weights).2).1
  | .optimize => (FullTextCollection.optimize (FullTextCollection.rebuild (FullTextCollection.setRank c weights).2).2).1

private theorem outcomes_order (weights : Weights) (c : σ) :
    (takeAll weights MaintenanceStep.order c).1 = MaintenanceStep.order.map fun step =>
    ⟨step, answer weights c step⟩ :=
  rfl

/-- Maintenance that tries every step: the calls for the steps are made in order, and the report has
each step with the answer to its call, among those completed or among the failures. -/
structure BestEffort (weights : Weights) (c : σ) : Prop where
  calls : (run weights (Recorded.start c)).2.2.calls =
    MaintenanceStep.order.map fun step => .step step (answer weights c step)
  completed : (run weights c).2.1.completed = MaintenanceStep.order.filter fun step =>
    (answer weights c step).isOk
  failures : (run weights c).2.1.failures.map (fun f => (f.step, Except.error f.source)) =
    (MaintenanceStep.order.filter fun step => !(answer weights c step).isOk).map fun step =>
      (step, answer weights c step)
  state : (run weights c).2.2 = (run weights (Recorded.start c)).2.2.collection

theorem bestEffort (weights : Weights) (c : σ) : BestEffort weights c where
  calls := by
    have calls := calls_takeAll weights MaintenanceStep.order (Recorded.start c)
    rw [outcomes_order, List.map_map] at calls
    exact calls
  completed := by
    show (report (takeAll weights MaintenanceStep.order c).1).completed = _
    rw [completed_report, outcomes_order, List.filter_map, List.map_map]
    exact List.map_id _
  failures := by
    show ((report (takeAll weights MaintenanceStep.order c).1).failures.map _) = _
    rw [failures_report, outcomes_order, List.filter_map, List.map_map]
    rfl
  state := congrArg Prod.snd
    (alike_collection.map_takeSteps weights MaintenanceStep.order (Recorded.start c))

end Maintenance

/-- An ingestion whose batches have all been taken counts them and their records, whatever becomes
of the maintenance that follows, and reports that. -/
theorem ingest_of_taken {σ : Type} [FullTextCollection σ] {options : Options}
    (positive : 1 ≤ options.batchSize) (fits : options.batchSize ≤ BatchWriter.greatestBatch)
    (build : Path → BuiltRecord) (source : List SourceItem) {c loaded : σ} :
    let built := (firstFiles options.maxFiles source).map build
    let batches := cut options.batchSize [] (built.map (·.record))
    let done := Ingestion.ingest options build source c
    let tended := Maintenance.run options.weights loaded
    insertEach c batches = (.ok (), loaded) →
      done.result =
        .ok ⟨built.length, built.length, batches.length,
          built.countP (·.readFailure.isSome), tended.2.1⟩ ∧
      done.state = tended.2.2 := by
  intro built batches done tended taken
  have handed := Ingestion.ingest_eq_handOver positive fits build source c
  simp only [Progress.handOver, Progress.finished, Progress.batches, List.length_nil,
    Nat.zero_add] at handed
  rw [taken] at handed
  exact Prod.mk.inj handed

end TextArchive.Ingest
