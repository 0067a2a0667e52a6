import Mathlib.Data.List.Permutation
import TextArchive.Proofs.Ingest.Handover

/-!
Completeness: an ingestion whose batches are all taken hands over every file once, in order, in
batches that are full but for the last, and reports as much.
-/

set_option autoImplicit false
set_option relaxedAutoImplicit false

namespace TextArchive.Ingest

open TextArchive.File (Disk Path)

theorem isSome_readFailure_build (b : RecordBuilder) (disk : Disk) (path : Path) :
    (b.build disk path).readFailure.isSome = !(disk.read path).isOk := by
  simp only [RecordBuilder.build, RecordBuilder.readText]
  rcases disk.read path with e | bytes <;> rfl

/-- An ingestion none of whose batches is refused succeeds. The batches are the records of the first
files, each once and in order, unreadable files with a placeholder; all batches but the last are
full and none is empty; and the report counts them. -/
theorem ingest_complete {σ : Type} [FullTextCollection σ] (options : Options)
    (positive : 1 ≤ options.batchSize) (fits : options.batchSize ≤ BatchWriter.greatestBatch)
    (disk : Disk) (source : List SourceItem) (c : σ)
    (taken : ∀ attempt ∈ (Ingestion.ingest options ((Ingestion.builder options).build disk) source
      (Recorded.start c)).state.attempts, attempt.result = .ok ()) :
    let build := (Ingestion.builder options).build disk
    let files := firstFiles options.maxFiles source
    let batches := (Ingestion.ingest options build source (Recorded.start c)).state.attempts.map
      (·.records)
    batches.flatten = files.map (fun path => (build path).record) ∧
    (∀ path e, disk.read path = .error e →
      (build path).record.content = "[error reading file: " ++ e.message ++ "]") ∧
    (∀ batch ∈ batches.dropLast, batch.length = options.batchSize) ∧
    (∀ batch ∈ batches, 1 ≤ batch.length ∧ batch.length ≤ options.batchSize) ∧
    ∃ report, (Ingestion.ingest options build source c).result = .ok report ∧
      report.total = files.length ∧ report.inserted = files.length ∧
      report.batches = (files.length + options.batchSize - 1) / options.batchSize ∧
      report.readFailures = files.countP (fun path => !(disk.read path).isOk) := by
  intro build files batches
  have placeholder : ∀ path e, disk.read path = .error e →
      (build path).record.content = "[error reading file: " ++ e.message ++ "]" := by
    intro path e failed
    simp only [build, RecordBuilder.build, RecordBuilder.readText, failed]
    rfl
  have room : ([] : List Record).length < options.batchSize := positive
  rcases ingest_recorded positive fits build source c with
    ⟨attempts, maintenance, result⟩ | ⟨before, batch, after, e, -, -, -, calls⟩
  · have handed : batches = cut options.batchSize [] ((files.map build).map (·.record)) := by
      simp only [batches, attempts, List.map_map]
      exact List.map_id _
    refine ⟨?_, placeholder, ?_, ?_, ?_⟩
    · rw [handed, flatten_cut, List.nil_append, List.map_map]
      rfl
    · rw [handed]
      exact fun batch member => length_of_mem_dropLast_cut positive member
    · rw [handed]
      exact fun batch member => ⟨length_pos_of_mem_cut member, length_le_of_mem_cut room member⟩
    · refine ⟨_, by rw [ingest_start]; exact result, List.length_map _, List.length_map _, ?_, ?_⟩
      · simp only [length_cut [] _ room, List.length_nil, Nat.zero_add, List.length_map]
        rfl
      · rw [List.countP_map]
        exact List.countP_congr fun path _ => by
          simp only [Function.comp_apply, build, isSome_readFailure_build]
  · have refused : (⟨batch, .error e⟩ : Attempt) ∈
        (Ingestion.ingest options build source (Recorded.start c)).state.attempts := by
      simp [Recorded.attempts, calls, Call.attempt?]
    exact absurd (taken _ refused) (by simp)

/-- The first three of five files, two of them missing, in batches of two, into a collection that
refuses to be optimized. -/
theorem ingest_complete_of_five_files :
    let options : Options := { batchSize := 2, maxFiles := some 3 }
    let disk : Disk := ⟨[([[97]], .file (.bytes [104, 105])), ([[100]], .socket)], []⟩
    let source : List SourceItem := [[97], [98], [99], [100], [97]].map fun name => .file ⟨name⟩
    let collection := MemoryCollection.refusing [] ["optimize"]
    (1 ≤ options.batchSize ∧ options.batchSize ≤ BatchWriter.greatestBatch) ∧
    (∀ attempt ∈ (Ingestion.ingest options ((Ingestion.builder options).build disk) source
      (Recorded.start collection)).state.attempts, attempt.result = .ok ()) ∧
    ∃ report,
      (Ingestion.ingest options ((Ingestion.builder options).build disk) source collection).result =
        .ok report ∧
      report.total = 3 ∧ report.inserted = 3 ∧ report.batches = 2 ∧ report.readFailures = 2 := by
  intro options disk source collection
  have positive : 1 ≤ options.batchSize := by decide
  have fits : options.batchSize ≤ BatchWriter.greatestBatch := by decide
  have taken := attempts_ok (fun m : MemoryCollection => m.refusedBatches = [])
    (fun m records empty => by
      simp [FullTextCollection.insertBatch, MemoryCollection.insertBatch,
        show m.refusedBatches = [] from empty])
    (c := collection) rfl positive fits ((Ingestion.builder options).build disk) source
  obtain ⟨-, -, -, -, report, result, total, inserted, batches, failures⟩ :=
    ingest_complete options positive fits disk source collection taken
  refine ⟨⟨positive, fits⟩, taken, report, result, total, inserted,
    batches.trans (by decide), failures.trans ?_⟩
  have unreadable : (fun path => !(disk.read path).isOk) ⟨[97]⟩ = false ∧
      (fun path => !(disk.read path).isOk) ⟨[98]⟩ = true ∧
      (fun path => !(disk.read path).isOk) ⟨[99]⟩ = true := by cbv
  simp only [firstFiles, source, options, List.map_cons, List.map_nil, List.filterMap_cons,
    List.filterMap_nil, SourceItem.file?, List.take_succ_cons, List.take_zero, List.countP_cons,
      List.countP_nil, unreadable]
  rfl

/-- Where no room can be made for a batch, the program ends although nothing has been refused. -/
theorem ingest_without_room :
    let options : Options := { batchSize := 2 ^ 64 - 1 }
    let collection := Recorded.start (MemoryCollection.refusing [] [])
    let done := Ingestion.ingest options ((Ingestion.builder options).build ⟨[],
      []⟩) [.file ⟨[97]⟩] collection
    1 ≤ options.batchSize ∧ done.state.attempts = [] ∧ done.result = .error .capacityOverflow :=
  ⟨by decide, rfl, rfl⟩

end TextArchive.Ingest
