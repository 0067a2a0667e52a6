import TextArchive.Ingest.Ingestion

/-!
Recording what an ingestion asks of a collection. A recorded collection answers as the one it stands
for, and an ingestion cannot tell them apart, so the calls that it records are those of the
ingestion itself.
-/

set_option autoImplicit false
set_option relaxedAutoImplicit false

namespace TextArchive.Ingest

open TextArchive.File (Path)
open TextArchive.Store (StoreError)

structure Attempt where
  records : List Record
  result : Except StoreError Unit

/-- The records of the batches that were taken, first one first. -/
def committed (attempts : List Attempt) : List Record :=
  (attempts.filter (·.result.isOk)).flatMap (·.records)

theorem committed_taken (batches : List (List Record)) :
    committed (batches.map fun batch => ⟨batch, .ok ()⟩) = batches.flatten := by
  have all : (batches.map fun batch => (⟨batch, .ok ()⟩ : Attempt)).filter (·.result.isOk) =
      batches.map fun batch => ⟨batch, .ok ()⟩ := by
    refine List.filter_eq_self.mpr fun attempt member => ?_
    obtain ⟨batch, -, rfl⟩ := List.mem_map.mp member
    rfl
  simp only [committed, all, List.flatMap_map, List.flatMap_id']

/-- Something that a collection was asked for, and its answer. -/
inductive Call where
  | batch (attempt : Attempt)
  | step (step : MaintenanceStep) (result : Except StoreError Unit)

def Call.attempt? : Call → Option Attempt
  | .batch attempt => some attempt
  | .step _ _ => none

/-- A collection with the calls that it has answered. -/
structure Recorded (σ : Type) where
  collection : σ
  calls : List Call

namespace Recorded

variable {σ : Type}

def start (collection : σ) : Recorded σ := ⟨collection, []⟩

/-- The batches that the collection was asked to take, first one first. -/
def attempts (r : Recorded σ) : List Attempt :=
  r.calls.filterMap Call.attempt?

def answer (r : Recorded σ) (call : Except StoreError Unit → Call)
    (answered : Except StoreError Unit × σ) :
    Except StoreError Unit × Recorded σ :=
  (answered.1, ⟨answered.2, r.calls ++ [call answered.1]⟩)

end Recorded

instance {σ : Type} [FullTextCollection σ] : FullTextCollection (Recorded σ) where
  insertBatch r records :=
    r.answer (fun result => .batch ⟨records, result⟩)
      (FullTextCollection.insertBatch r.collection records)
  setRank r weights := r.answer (.step .setRank) (FullTextCollection.setRank r.collection weights)
  rebuild r := r.answer (.step .rebuild) (FullTextCollection.rebuild r.collection)
  optimize r := r.answer (.step .optimize) (FullTextCollection.optimize r.collection)

/-- A view of one collection as another that answers alike. -/
structure Alike {σ τ : Type} [FullTextCollection σ] [FullTextCollection τ] (view : σ → τ) :
    Prop where
  insertBatch : ∀ c records, FullTextCollection.insertBatch (view c) records =
    Prod.map id view (FullTextCollection.insertBatch c records)
  setRank : ∀ c weights, FullTextCollection.setRank (view c) weights =
    Prod.map id view (FullTextCollection.setRank c weights)
  rebuild : ∀ c, FullTextCollection.rebuild (view c) = Prod.map id view
    (FullTextCollection.rebuild c)
  optimize : ∀ c, FullTextCollection.optimize (view c) = Prod.map id view
    (FullTextCollection.optimize c)

theorem alike_collection {σ : Type} [FullTextCollection σ] :
    Alike (Recorded.collection (σ := σ)) where
  insertBatch _ _ := rfl
  setRank _ _ := rfl
  rebuild _ := rfl
  optimize _ := rfl

namespace Alike

variable {σ τ : Type} [FullTextCollection σ] [FullTextCollection τ] {view : σ → τ}
    (alike : Alike view)
include alike

private theorem map_flush (w : BatchWriter) (c : σ) :
    w.flush (view c) = Prod.map id (Prod.map id view) (w.flush c) := by
  simp only [BatchWriter.flush, alike.insertBatch]
  rcases FullTextCollection.insertBatch c w.buffer with ⟨_ | _, c'⟩ <;> rfl

theorem map_push (w : BatchWriter) (c : σ) (record : Record) :
    w.push (view c) record = Prod.map id (Prod.map id view) (w.push c record) := by
  simp only [BatchWriter.push]
  split
  · exact alike.map_flush _ c
  · rfl

theorem map_finish (w : BatchWriter) (c : σ) :
    w.finish (view c) = Prod.map id (Prod.map id view) (w.finish c) := by
  simp only [BatchWriter.finish]
  split
  · rfl
  · exact alike.map_flush _ c

private theorem map_takeRecord (built : BuiltRecord) (p : Progress) (c : σ) :
    Ingestion.takeRecord built p (view c) = (Ingestion.takeRecord built p c).mapState view := by
  simp only [Ingestion.takeRecord, alike.map_push]
  rcases p.writer.push c built.record with ⟨_ | _ | size, w, c'⟩ <;> rfl

private theorem map_takeFiles (maxFiles : Option Nat) (build : Path → BuiltRecord)
    (source : List SourceItem) (p : Progress) (c : σ) :
    Ingestion.takeFiles maxFiles build source p (view c) =
      (Ingestion.takeFiles maxFiles build source p c).mapState view := by
  induction source generalizing p c with
  | nil => rfl
  | cons item source ih =>
    cases item with
    | note event =>
      simp only [Ingestion.takeFiles, ih]
      rfl
    | file path =>
      simp only [Ingestion.takeFiles]
      split
      · rfl
      · rw [alike.map_takeRecord]
        rcases Ingestion.takeRecord (build path) p c with ⟨events, c', e | p'⟩
        · rfl
        · simp only [Outcome.mapState, ih]
          rfl

private theorem map_finishBatches (p : Progress) (c : σ) :
    Ingestion.finishBatches p (view c) = (Ingestion.finishBatches p c).mapState view := by
  simp only [Ingestion.finishBatches, alike.map_finish]
  rcases p.writer.finish c with ⟨_ | _ | size, w, c'⟩ <;> rfl

theorem map_takeStep (weights : Weights) (c : σ) (step : MaintenanceStep) :
    Maintenance.take weights (view c) step =
    Prod.map id view (Maintenance.take weights c step) := by
  cases step with
  | setRank => exact alike.setRank c weights
  | rebuild => exact alike.rebuild c
  | optimize => exact alike.optimize c

theorem map_takeSteps (weights : Weights) (steps : List MaintenanceStep) (c : σ) :
    Maintenance.takeAll weights steps (view c) = Prod.map id view
    (Maintenance.takeAll weights steps c) := by
  induction steps generalizing c with
  | nil => rfl
  | cons step steps ih =>
    simp only [Maintenance.takeAll, alike.map_takeStep, Prod.map_fst, Prod.map_snd, ih, id_eq]
    rfl

private theorem map_conclude (weights : Weights) (p : Progress) (c : σ) :
    Ingestion.conclude weights p (view c) = (Ingestion.conclude weights p c).mapState view := by
  simp only [Ingestion.conclude, Maintenance.run, alike.map_takeSteps]
  rfl

/-- Ingesting into collections that answer alike comes to the same, events and report included. -/
theorem map_ingest (options : Options) (build : Path → BuiltRecord) (source : List SourceItem)
    (c : σ) :
    Ingestion.ingest options build source (view c) =
      (Ingestion.ingest options build source c).mapState view := by
  simp only [Ingestion.ingest]
  split
  · rfl
  · rename_i writer _
    rw [alike.map_takeFiles]
    rcases Ingestion.takeFiles options.maxFiles build source
      ⟨writer, 0, 0⟩ c with ⟨events, c', e | p⟩
    · rfl
    · simp only [Outcome.mapState, Outcome.andThen, alike.map_finishBatches]
      rcases Ingestion.finishBatches p c' with ⟨events', c'', e | p'⟩
      · rfl
      · simp only [Outcome.after, alike.map_conclude]
        rfl

end Alike

end TextArchive.Ingest
