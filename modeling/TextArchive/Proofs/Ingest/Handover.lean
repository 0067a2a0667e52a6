import TextArchive.Proofs.Ingest.Cutting
import TextArchive.Proofs.Ingest.Recording

/-!
What an ingestion hands over. The records of the files that it takes are cut into batches, which are
handed over up to the first that is refused; only if none is, the index is maintained and the report
counts them all.
-/

set_option autoImplicit false
set_option relaxedAutoImplicit false

namespace TextArchive.Ingest

open TextArchive.File (Disk FileError Path)
open TextArchive.Store (StoreError)

/-- The files of a source that an ingestion with a limit takes. -/
def firstFiles (maxFiles : Option Nat) (source : List SourceItem) : List Path :=
  let files := source.filterMap SourceItem.file?
  match maxFiles with
  | none => files
  | some most => files.take most

/-- Hand over batches up to the first that is refused. -/
def insertEach {σ : Type} [FullTextCollection σ] (collection : σ) :
    List (List Record) → Except StoreError Unit × σ
  | [] => (.ok (), collection)
  | batch :: batches =>
    match FullTextCollection.insertBatch collection batch with
    | (.ok (), collection) => insertEach collection batches
    | (.error e, collection) => (.error e, collection)

/-- The result of handing something over, with what it gives if nothing is refused. -/
def written {α : Type} (sent : Except StoreError Unit) (a : α) : Except IngestError α :=
  match sent with
  | .ok () => .ok a
  | .error e => .error (.writeFailed e)

namespace Progress

variable {σ : Type} [FullTextCollection σ]

/-- The batches that are to come when some more records have been built. -/
def batches (p : Progress) (built : List BuiltRecord) : List (List Record) :=
  cut p.writer.batchSize p.writer.buffer (built.map (·.record))

/-- An ingestion when some more records have been built and all has been handed over. -/
def finished (p : Progress) (built : List BuiltRecord) : Progress where
  writer := ⟨p.writer.batchSize, [], p.writer.inserted + (p.writer.buffer.length + built.length),
    p.writer.batches + (p.batches built).length⟩
  total := p.total + built.length
  readFailures := p.readFailures + built.countP (·.readFailure.isSome)

/-- What comes of handing over what is held back and some more records. -/
def handOver (p : Progress) (built : List BuiltRecord) (collection : σ) :
    Except IngestError Progress × σ :=
  let sent := insertEach collection (p.batches built)
  (written sent.1 (p.finished built), sent.2)

/-- An ingestion when a record has been taken that its batch still had room for. -/
def holding (p : Progress) (built : BuiltRecord) : Progress where
  writer := { p.writer with buffer := p.writer.buffer ++ [built.record] }
  total := p.total + 1
  readFailures := p.readFailures + (if built.readFailure.isSome then 1 else 0)

/-- An ingestion when a record has filled its batch and the batch has been taken. -/
def flushed (p : Progress) (built : BuiltRecord) : Progress where
  writer := ⟨p.writer.batchSize, [],
    p.writer.inserted + (p.writer.buffer ++ [built.record]).length, p.writer.batches + 1⟩
  total := p.total + 1
  readFailures := p.readFailures + (if built.readFailure.isSome then 1 else 0)

variable {p : Progress} {built : BuiltRecord}

theorem batches_cons_of_room
    (room : ¬ p.writer.batchSize ≤ (p.writer.buffer ++ [built.record]).length)
    (later : List BuiltRecord) : p.batches (built :: later) = (p.holding built).batches later := by
  simp only [batches, List.map_cons, cut, room, if_false, holding]

theorem batches_cons_of_full
    (full : p.writer.batchSize ≤ (p.writer.buffer ++ [built.record]).length)
    (later : List BuiltRecord) : p.batches (built :: later) =
      (p.writer.buffer ++ [built.record]) :: (p.flushed built).batches later := by
  simp only [batches, List.map_cons, cut, full, if_true, flushed]

private theorem finished_cons_of_room
    (room : ¬ p.writer.batchSize ≤ (p.writer.buffer ++ [built.record]).length)
    (later : List BuiltRecord) :
    p.finished (built :: later) = (p.holding built).finished later := by
  simp only [finished, batches_cons_of_room room, List.length_cons, List.countP_cons]
  simp only [holding, List.length_append, List.length_cons, List.length_nil, mk.injEq]
  refine ⟨?_, ?_, ?_⟩
  · congr 2
    omega
  · omega
  · omega

private theorem finished_cons_of_full
    (full : p.writer.batchSize ≤ (p.writer.buffer ++ [built.record]).length)
    (later : List BuiltRecord) :
    p.finished (built :: later) = (p.flushed built).finished later := by
  simp only [finished, batches_cons_of_full full, List.length_cons, List.countP_cons]
  simp only [flushed, List.length_append, List.length_cons, List.length_nil, mk.injEq]
  refine ⟨?_, ?_, ?_⟩
  · congr 1 <;> omega
  · omega
  · omega

end Progress

section Limit

@[simp] theorem firstFiles_nil (maxFiles : Option Nat) : firstFiles maxFiles [] = [] := by
  cases maxFiles <;> simp [firstFiles]

@[simp] theorem firstFiles_note (maxFiles : Option Nat) (event : Event) (source : List SourceItem) :
    firstFiles maxFiles (.note event :: source) = firstFiles maxFiles source := by
  cases maxFiles <;> rfl

def remaining (maxFiles : Option Nat) (total : Nat) : Option Nat := maxFiles.map (· - total)

theorem firstFiles_of_limitReached {maxFiles : Option Nat} {total : Nat}
    (reached : Ingestion.limitReached maxFiles total = true) (source : List SourceItem) :
    firstFiles (remaining maxFiles total) source = [] := by
  cases maxFiles with
  | none => simp [Ingestion.limitReached] at reached
  | some most =>
    have none_left : most - total = 0 := Nat.sub_eq_zero_of_le
      (by simpa [Ingestion.limitReached] using reached)
    simp [firstFiles, remaining, none_left]

theorem firstFiles_of_not_limitReached {maxFiles : Option Nat} {total : Nat}
    (free : Ingestion.limitReached maxFiles total = false) (path : Path)
    (source : List SourceItem) :
    firstFiles (remaining maxFiles total) (.file path :: source) =
      path :: firstFiles (remaining maxFiles (total + 1)) source := by
  cases maxFiles with
  | none => rfl
  | some most =>
    have more : most - total = most - (total + 1) + 1 := by
      have : total < most := by simpa [Ingestion.limitReached] using free
      omega
    simp only [firstFiles, remaining, Option.map_some, List.filterMap_cons, SourceItem.file?, more,
      List.take_succ_cons]

@[simp] theorem remaining_zero (maxFiles : Option Nat) : remaining maxFiles 0 = maxFiles := by
  cases maxFiles <;> rfl

end Limit

namespace Ingestion

variable {σ : Type} [FullTextCollection σ]

private theorem finishBatches_eq_handOver (p : Progress) (c : σ) :
    ((finishBatches p c).result, (finishBatches p c).state) = p.handOver [] c := by
  obtain ⟨⟨size, held, inserted, batches⟩, total, failures⟩ := p
  cases held with
  | nil => rfl
  | cons first held =>
    simp only [Progress.handOver, Progress.batches, List.map_nil, cut, List.isEmpty_cons,
      Bool.false_eq_true, if_false, insertEach, finishBatches, BatchWriter.finish,
      BatchWriter.flush]
    rcases FullTextCollection.insertBatch c (first :: held) with ⟨e | _, c'⟩ <;> rfl

theorem takeRecord_of_room {p : Progress} {built : BuiltRecord}
    (room : ¬ p.writer.batchSize ≤ (p.writer.buffer ++ [built.record]).length) (c : σ) :
    takeRecord built p c = ⟨readEvents built, c, .ok (p.holding built)⟩ := by
  simp only [takeRecord, BatchWriter.push, if_neg room]
  rfl

theorem takeRecord_of_full {p : Progress} {built : BuiltRecord}
    (full : p.writer.batchSize ≤ (p.writer.buffer ++ [built.record]).length) (c : σ) :
    takeRecord built p c =
      match FullTextCollection.insertBatch c (p.writer.buffer ++ [built.record]) with
      | (.error e, c) => ⟨readEvents built, c, .error (.writeFailed e)⟩
      | (.ok (), c) =>
        ⟨readEvents built ++ [.batchCommitted (p.writer.buffer ++ [built.record]).length
            (p.flushed built).writer.inserted (p.total + 1)], c, .ok (p.flushed built)⟩ := by
  simp only [takeRecord, BatchWriter.push, BatchWriter.flush, if_pos full]
  rcases FullTextCollection.insertBatch c (p.writer.buffer ++ [built.record]) with ⟨e | _, c'⟩ <;> rfl

private theorem takeFiles_finishBatches (maxFiles : Option Nat) (build : Path → BuiltRecord)
    (source : List SourceItem) (p : Progress) (c : σ) :
    let done := (takeFiles maxFiles build source p c).andThen finishBatches
    (done.result, done.state) =
      p.handOver ((firstFiles (remaining maxFiles p.total) source).map build) c := by
  induction source generalizing p c with
  | nil =>
    rw [firstFiles_nil]
    exact finishBatches_eq_handOver p c
  | cons item source ih =>
    cases item with
    | note event =>
      simp only [takeFiles, Outcome.andThen_after, Outcome.state_after, Outcome.result_after,
        firstFiles_note]
      exact ih p c
    | file path =>
      by_cases reached : limitReached maxFiles p.total = true
      · rw [firstFiles_of_limitReached reached]
        simp only [takeFiles, reached, if_true]
        exact finishBatches_eq_handOver p c
      · have free : limitReached maxFiles p.total = false := by simpa using reached
        rw [firstFiles_of_not_limitReached free, List.map_cons]
        simp only [takeFiles, free, Bool.false_eq_true, if_false]
        by_cases full : p.writer.batchSize ≤ (p.writer.buffer ++ [(build path).record]).length
        · rw [takeRecord_of_full full, Progress.handOver, Progress.finished_cons_of_full full,
            Progress.batches_cons_of_full full, insertEach]
          rcases FullTextCollection.insertBatch c
            (p.writer.buffer ++ [(build path).record]) with ⟨e | _, c'⟩
          · rfl
          · simp only [Outcome.andThen_after, Outcome.state_after, Outcome.result_after]
            exact ih (p.flushed (build path)) c'
        · rw [takeRecord_of_room full, Progress.handOver, Progress.finished_cons_of_room full,
            Progress.batches_cons_of_room full]
          simp only [Outcome.andThen_after, Outcome.state_after, Outcome.result_after]
          exact ih (p.holding (build path)) c

theorem ingest_overflow {options : Options} (overflow : BatchWriter.greatestBatch < options.batchSize)
    (build : Path → BuiltRecord) (source : List SourceItem) (c : σ) :
    ingest options build source c =
    ⟨[.ingestionStarted options.batchSize], c, .error .capacityOverflow⟩ := by
  have positive : options.batchSize ≠ 0 := Nat.ne_of_gt
    (Nat.lt_of_le_of_lt (Nat.zero_le _) overflow)
  simp only [ingest, BatchWriter.start, if_neg positive, if_pos overflow]

/-- An ingestion hands over the batches of its files, then maintains the index unless a batch is
refused. -/
theorem ingest_eq_handOver {options : Options} (positive : 1 ≤ options.batchSize)
    (fits : options.batchSize ≤ BatchWriter.greatestBatch) (build : Path → BuiltRecord)
    (source : List SourceItem) (c : σ) :
    let start : Progress := ⟨⟨options.batchSize, [], 0, 0⟩, 0, 0⟩
    let done := ingest options build source c
    (done.result, done.state) =
      match start.handOver ((firstFiles options.maxFiles source).map build) c with
      | (.error e, c) => (.error e, c)
      | (.ok p, c) =>
        (.ok ⟨p.total, p.writer.inserted, p.writer.batches, p.readFailures,
          (Maintenance.run options.weights c).2.1⟩,
          (Maintenance.run options.weights c).2.2) := by
  have started := BatchWriter.start_of_fits positive fits
  have handed :=
    takeFiles_finishBatches options.maxFiles build source ⟨⟨options.batchSize, [], 0, 0⟩, 0, 0⟩ c
  simp only [remaining_zero] at handed
  simp only [ingest, started, Outcome.state_after, Outcome.result_after, ← handed]
  rcases (takeFiles options.maxFiles build source ⟨⟨options.batchSize, [], 0, 0⟩, 0, 0⟩ c).andThen
    finishBatches with ⟨events, c', e | p⟩ <;> rfl

end Ingestion

section Preserved

variable {σ : Type} [FullTextCollection σ] {holds : σ → Prop}

private theorem insertEach_preserves
    (insert : ∀ c records, holds c →
    holds (FullTextCollection.insertBatch c records).2) {c : σ} (start : holds c)
    (batches : List (List Record)) : holds (insertEach c batches).2 := by
  induction batches generalizing c with
  | nil => exact start
  | cons batch batches ih =>
    have next := insert c batch start
    simp only [insertEach]
    rcases answered : FullTextCollection.insertBatch c batch with ⟨_ | _, c'⟩
    · rwa [answered] at next
    · rw [answered] at next
      exact ih next

theorem maintenance_preserves (weights : Weights)
    (take : ∀ c step, holds c →
    holds (Maintenance.take weights c step).2) {c : σ} (start : holds c) :
    holds (Maintenance.run weights c).2.2 := by
  have each : ∀ steps (c : σ), holds c → holds (Maintenance.takeAll weights steps c).2 := by
    intro steps
    induction steps with
    | nil => exact fun c start => start
    | cons step steps ih => exact fun c start => ih _ (take c step start)
  exact each MaintenanceStep.order c start

/-- What every batch preserves holds where an ingestion ends that is refused a batch, and otherwise
where the maintenance begins with which it ends. -/
theorem ingest_cases (options : Options)
    (insert : ∀ c records, holds c →
    holds (FullTextCollection.insertBatch c records).2) {c : σ} (start : holds c)
    (build : Path → BuiltRecord) (source : List SourceItem) :
    let done := Ingestion.ingest options build source c
    (∃ e, done.result = .error e ∧ holds done.state) ∨
    ∃ loaded report, holds loaded ∧ done.result = .ok report ∧
      report.maintenance = (Maintenance.run options.weights loaded).2.1 ∧
      done.state = (Maintenance.run options.weights loaded).2.2 := by
  intro done
  rcases Nat.eq_zero_or_pos options.batchSize with zero | positive
  · have refused : done =
        ⟨[.ingestionStarted options.batchSize], c, .error (.invalidArgument .zeroBatchSize)⟩ := by
      simp [done, Ingestion.ingest, BatchWriter.start, zero]
    exact .inl ⟨_, congrArg Outcome.result refused, refused ▸ start⟩
  rcases Nat.lt_or_ge BatchWriter.greatestBatch options.batchSize with overflow | fits
  · have ended : done = ⟨[.ingestionStarted options.batchSize], c, .error .capacityOverflow⟩ :=
      Ingestion.ingest_overflow overflow build source c
    exact .inl ⟨_, congrArg Outcome.result ended, ended ▸ start⟩
  · have handed := Ingestion.ingest_eq_handOver positive fits build source c
    simp only [Progress.handOver] at handed
    have inserted := insertEach_preserves insert start
      ((⟨⟨options.batchSize, [], 0, 0⟩, 0,
        0⟩ : Progress).batches ((firstFiles options.maxFiles source).map build))
    generalize insertEach c ((⟨⟨options.batchSize, [], 0, 0⟩, 0, 0⟩ : Progress).batches
      ((firstFiles options.maxFiles source).map build)) = sent at handed inserted
    rcases sent with ⟨e | _, loaded⟩
    · obtain ⟨result, state⟩ := Prod.mk.inj handed
      exact .inl ⟨_, result, state ▸ inserted⟩
    · obtain ⟨result, state⟩ := Prod.mk.inj handed
      exact .inr ⟨loaded, _, inserted, result, rfl, state⟩

/-- An ingestion that succeeds has made room for its batches, all of them have been taken, and it
has ended with index maintenance. -/
theorem taken_of_ingest {options : Options} {build : Path → BuiltRecord} {source : List SourceItem}
    {c : σ} {report : Report}
    (ingested : (Ingestion.ingest options build source c).result = .ok report) :
    let files := firstFiles options.maxFiles source
    (1 ≤ options.batchSize ∧ options.batchSize ≤ BatchWriter.greatestBatch) ∧
      report.total = files.length ∧
      ∃ loaded, insertEach c
        (cut options.batchSize [] (files.map fun p => (build p).record)) = (.ok (), loaded) ∧
        (Ingestion.ingest options build source c).state
          = (Maintenance.run options.weights loaded).2.2 := by
  intro files
  have positive : 1 ≤ options.batchSize := by
    refine Nat.pos_of_ne_zero fun zero => ?_
    simp [Ingestion.ingest, BatchWriter.start, zero] at ingested
  have fits : options.batchSize ≤ BatchWriter.greatestBatch := by
    refine Nat.le_of_not_lt fun overflow => ?_
    rw [Ingestion.ingest_overflow overflow] at ingested
    cases ingested
  have handed := Ingestion.ingest_eq_handOver positive fits build source c
  simp only [Progress.handOver, Progress.finished, Progress.batches, List.length_nil, Nat.zero_add,
    List.map_map, List.length_map] at handed
  rcases sent : insertEach c (cut options.batchSize [] (files.map fun p => (build p).record)) with
    ⟨e | _, loaded⟩
  · simp only [Function.comp_def, files] at sent handed
    simp only [sent, written, Prod.mk.injEq] at handed
    cases handed.1.symm.trans ingested
  · simp only [Function.comp_def, files] at sent handed
    simp only [sent, written, Prod.mk.injEq] at handed
    cases handed.1.symm.trans ingested
    exact ⟨⟨positive, fits⟩, rfl, loaded, rfl, handed.2⟩

/-- What every batch and every step of index maintenance preserves holds after an ingestion, however
it ends. -/
theorem ingest_preserves (options : Options)
    (insert : ∀ c records, holds c → holds (FullTextCollection.insertBatch c records).2)
    (take : ∀ c step, holds c → holds (Maintenance.take options.weights c step).2) {c : σ}
    (start : holds c) (build : Path → BuiltRecord) (source : List SourceItem) :
    holds (Ingestion.ingest options build source c).state := by
  rcases ingest_cases options insert start build source with ⟨e, -, refused⟩ |
    ⟨loaded, report, taken, -, -, state⟩
  · exact refused
  · rw [state]
    exact maintenance_preserves options.weights take taken

end Preserved

section Recorded

variable {σ : Type} [FullTextCollection σ]

private theorem calls_insertEach (batches : List (List Record)) (r : Recorded σ) :
    ((insertEach r batches).1 = .ok () ∧
      (insertEach r batches).2.calls = r.calls ++ batches.map fun batch => .batch ⟨batch, .ok ()⟩) ∨
    ∃ before batch after e, batches = before ++ batch :: after ∧
    (insertEach r batches).1 = .error e ∧
      (insertEach r batches).2.calls =
        r.calls ++ (before.map fun batch => Call.batch ⟨batch, .ok ()⟩) ++
        [.batch ⟨batch, .error e⟩] := by
  induction batches generalizing r with
  | nil => exact .inl ⟨rfl, by simp [insertEach]⟩
  | cons first batches ih =>
    rcases answered : FullTextCollection.insertBatch r.collection first with ⟨e | _, c⟩
    · have handed : insertEach r (first :: batches) =
          (.error e, ⟨c, r.calls ++ [.batch ⟨first, .error e⟩]⟩) := by
        simp [insertEach, FullTextCollection.insertBatch, Recorded.answer, answered]
      refine .inr ⟨[], first, batches, e, rfl, ?_, ?_⟩ <;> simp [handed]
    · have handed : insertEach r (first :: batches) =
          insertEach ⟨c, r.calls ++ [.batch ⟨first, .ok ()⟩]⟩ batches := by
        simp [insertEach, FullTextCollection.insertBatch, Recorded.answer, answered]
      rw [handed]
      rcases ih ⟨c, r.calls ++ [.batch ⟨first, .ok ()⟩]⟩ with ⟨ok, calls⟩ |
        ⟨before, batch, after, e, rfl, error, calls⟩
      · exact .inl ⟨ok, by simp [calls]⟩
      · exact .inr ⟨first :: before, batch, after, e, rfl, error, by simp [calls]⟩

private theorem insertEach_ok (accepting : σ → Prop)
    (takes : ∀ c records, accepting c → (FullTextCollection.insertBatch c records).1 = .ok () ∧
      accepting (FullTextCollection.insertBatch c records).2)
    {c : σ} (start : accepting c) (batches : List (List Record)) :
    (insertEach c batches).1 = .ok () := by
  induction batches generalizing c with
  | nil => rfl
  | cons batch batches ih =>
    obtain ⟨ok, next⟩ := takes c batch start
    simp only [insertEach]
    rcases answered : FullTextCollection.insertBatch c batch with ⟨e | _, c'⟩
    · simp [answered] at ok
    · rw [answered] at next
      exact ih next

theorem attempts_insertBatch (r : Recorded σ) (records : List Record) :
    (FullTextCollection.insertBatch r records).2.attempts =
      r.attempts ++ [⟨records, (FullTextCollection.insertBatch r.collection records).1⟩] := by
  simp [FullTextCollection.insertBatch, Recorded.answer, Recorded.attempts, Call.attempt?]

theorem attempts_take (weights : Weights) (step : MaintenanceStep) (r : Recorded σ) :
    (Maintenance.take weights r step).2.attempts = r.attempts := by
  cases step <;> simp [Maintenance.take, FullTextCollection.setRank, FullTextCollection.rebuild,
    FullTextCollection.optimize, Recorded.answer, Recorded.attempts, Call.attempt?]

theorem attempts_takeAll (weights : Weights) (steps : List MaintenanceStep) (r : Recorded σ) :
    (Maintenance.takeAll weights steps r).2.attempts = r.attempts := by
  induction steps generalizing r with
  | nil => rfl
  | cons step steps ih => simp only [Maintenance.takeAll, ih, attempts_take]

/-- The calls of an ingestion into a recorded collection: its batches up to the first that is
refused, and only if none is, the steps of index maintenance. -/
theorem ingest_recorded {options : Options} (positive : 1 ≤ options.batchSize)
    (fits : options.batchSize ≤ BatchWriter.greatestBatch) (build : Path → BuiltRecord)
    (source : List SourceItem) (c : σ) :
    let built := (firstFiles options.maxFiles source).map build
    let batches := cut options.batchSize [] (built.map (·.record))
    let done := Ingestion.ingest options build source (Recorded.start c)
    (done.state.attempts = batches.map (fun batch => ⟨batch, .ok ()⟩) ∧
      ∃ maintenance, done.result =
        .ok ⟨built.length, built.length, batches.length,
          built.countP (·.readFailure.isSome), maintenance⟩) ∨
    ∃ before batch after e, batches = before ++ batch :: after ∧
      done.result = .error (.writeFailed e) ∧
        insertEach (Recorded.start c) batches = (.error e, done.state) ∧
      done.state.calls =
        (before.map fun batch => Call.batch ⟨batch, .ok ()⟩) ++ [.batch ⟨batch, .error e⟩] := by
  have handed := Ingestion.ingest_eq_handOver positive fits build source (Recorded.start c)
  simp only [Progress.handOver, Progress.finished, Progress.batches, List.length_nil,
    Nat.zero_add] at handed
  rcases calls_insertEach (cut options.batchSize []
    (((firstFiles options.maxFiles source).map build).map (·.record))) (Recorded.start c) with
    ⟨ok, calls⟩ | ⟨before, batch, after, e, batches, error, calls⟩
  · left
    simp only [ok, written] at handed
    obtain ⟨result, state⟩ := Prod.mk.inj handed
    refine ⟨?_, _, result⟩
    rw [state]
    simp only [Maintenance.run, attempts_takeAll]
    rw [Recorded.attempts, calls]
    simp [Recorded.start, List.filterMap_map, Function.comp_def, Call.attempt?]
  · right
    simp only [error, written] at handed
    obtain ⟨result, state⟩ := Prod.mk.inj handed
    exact ⟨before, batch, after, e, batches, result, Prod.ext error state.symm,
      by rw [state, calls]; simp [Recorded.start]⟩

theorem ingest_start (options : Options) (build : Path → BuiltRecord) (source : List SourceItem)
    (c : σ) :
    Ingestion.ingest options build source c =
      (Ingestion.ingest options build source (Recorded.start c)).mapState Recorded.collection :=
  alike_collection.map_ingest options build source (Recorded.start c)

section Accepting

variable (accepting : σ → Prop)
  (takes : ∀ c records, accepting c → (FullTextCollection.insertBatch c records).1 = .ok () ∧
    accepting (FullTextCollection.insertBatch c records).2)
  {c : σ} (start : accepting c) {options : Options} (positive : 1 ≤ options.batchSize)
  (fits : options.batchSize ≤ BatchWriter.greatestBatch) (build : Path → BuiltRecord) (source : List SourceItem)
include takes start positive fits

private theorem ingest_accepted :
    let built := (firstFiles options.maxFiles source).map build
    let batches := cut options.batchSize [] (built.map (·.record))
    let done := Ingestion.ingest options build source (Recorded.start c)
    done.state.attempts = batches.map (fun batch => ⟨batch, .ok ()⟩) ∧ ∃ report,
      done.result = .ok report := by
  intro built batches done
  rcases ingest_recorded positive fits build source c with
    ⟨attempts, maintenance, result⟩ | ⟨before, batch, after, e, -, result, -, -⟩
  · exact ⟨attempts, _, result⟩
  · have handed := congrArg Prod.fst (Ingestion.ingest_eq_handOver positive fits build source c)
    simp only [Progress.handOver, insertEach_ok accepting takes start, written] at handed
    rw [ingest_start, Outcome.mapState, result] at handed
    simp at handed

theorem attempts_ok :
    ∀ attempt ∈ (Ingestion.ingest options build source (Recorded.start c)).state.attempts,
      attempt.result = .ok () := by
  intro attempt member
  rw [(ingest_accepted accepting takes start positive fits build source).1] at member
  obtain ⟨batch, -, rfl⟩ := List.mem_map.mp member
  rfl

end Accepting

end Recorded

end TextArchive.Ingest
