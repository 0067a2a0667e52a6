import Mathlib.Data.List.Permutation
import TextArchive.Proofs.Ingest.BestEffort

/-!
The log of an ingestion. It follows from the files that are taken, the size of the batches and the
answers of the collection: for each batch the files of it that cannot be read, and then the batch
once it is taken, with the counts so far. Nothing is logged after a batch that is refused.
-/

set_option autoImplicit false
set_option relaxedAutoImplicit false

namespace TextArchive.Ingest

open TextArchive.File (Disk FileError Path)
open TextArchive.Store (StoreError)

/-- Whether an event is about the way to the next file, which is logged by the walk. -/
def Event.isOfWalk : Event → Bool
  | .entrySkipped .. => true
  | _ => false

def SourceItem.note? : SourceItem → Option Event
  | .file _ => none
  | .note event => some event

/-- What an ingestion itself logs. -/
def ownEvents (events : List Event) : List Event :=
  events.filter (!·.isOfWalk)

/-- What the walk logs while an ingestion takes files from it. -/
def walkEvents (events : List Event) : List Event :=
  events.filter (·.isOfWalk)

def warnings (disk : Disk) (files : List Path) : List Event :=
  files.flatMap fun path =>
    match disk.read path with
    | .error e => [.fileUnreadable path e]
    | .ok _ => []

/-- What a step of maintenance leaves in the log. -/
def stepLog (step : MaintenanceStep) : Except StoreError Unit → Event
  | .ok () => .stepDone step
  | .error e => .stepFailed step e

section Batches

variable (disk : Disk) (size : Nat)

/-- What is logged for a number of full batches that are taken. -/
def batchesLog (files : List Path) : Nat → List Event
  | 0 => []
  | k + 1 => batchesLog files k ++ warnings disk ((files.drop (k * size)).take size) ++
      [.batchCommitted size ((k + 1) * size) ((k + 1) * size)]

/-- What is logged until the batch after some others is handed over. -/
def logUntil (files : List Path) (k : Nat) : List Event :=
  batchesLog disk size files k ++ warnings disk ((files.drop (k * size)).take size)

/-- What is logged when a further file is there and the limit is reached. -/
def limitLog (maxFiles : Option Nat) (available : Nat) : List Event :=
  match maxFiles with
  | none => []
  | some most => if most < available then [.fileLimitReached most] else []

/-- What is logged for the records that fill no batch. -/
def restLog (total : Nat) : List Event :=
  if total % size = 0 then [] else [.finalBatchCommitted (total % size) total total]

variable {disk size}

private theorem warnings_append (files more : List Path) :
    warnings disk (files ++ more) = warnings disk files ++ warnings disk more :=
  List.flatMap_append

private theorem readEvents_build (options : Options) (path : Path) :
    Ingestion.readEvents ((Ingestion.builder options).build disk path) = warnings disk [path] := by
  simp only [Ingestion.readEvents, RecordBuilder.build, RecordBuilder.readText, warnings,
    List.flatMap_singleton]
  cases disk.read path <;> rfl

private theorem take_drop_append {files : List Path} {k : Nat}
    (full : (k + 1) * size ≤ files.length)
    (more : List Path) : ((files ++ more).drop (k * size)).take size =
      (files.drop (k * size)).take size := by
  rw [Nat.succ_mul] at full
  rw [List.drop_append_of_le_length (by omega),
    List.take_append_of_le_length (by rw [List.length_drop]; omega)]

private theorem batchesLog_append {files : List Path} {k : Nat} (full : k * size ≤ files.length)
    (more : List Path) :
    batchesLog disk size (files ++ more) k = batchesLog disk size files k := by
  induction k with
  | zero => rfl
  | succ k ih =>
    have before : k * size ≤ files.length := Nat.le_trans
      (Nat.mul_le_mul_right size (Nat.le_succ k)) full
    simp only [batchesLog, ih before, take_drop_append full]

private theorem logUntil_append {files : List Path} {k : Nat} (full : (k + 1) * size ≤ files.length)
    (more : List Path) :
    logUntil disk size (files ++ more) k = logUntil disk size files k := by
  have before : k * size ≤ files.length := Nat.le_trans (Nat.mul_le_mul_right size (Nat.le_succ k)) full
  rw [logUntil, logUntil, batchesLog_append before, take_drop_append full]

private theorem logUntil_concat {files : List Path} {k : Nat} (before : k * size ≤ files.length)
    (room : files.length < (k + 1) * size) (path : Path) :
    logUntil disk size (files ++ [path]) k = logUntil disk size files k ++ warnings disk [path] := by
  rw [Nat.succ_mul] at room
  have few : ((files ++ [path]).drop (k * size)).length ≤ size := by
    simp only [List.length_drop, List.length_append, List.length_singleton]
    omega
  have fewer : (files.drop (k * size)).length ≤ size := by
    rw [List.length_drop]
    omega
  rw [logUntil, logUntil, batchesLog_append before, List.take_of_length_le few,
    List.take_of_length_le fewer, List.drop_append_of_le_length before, warnings_append,
    List.append_assoc]

private theorem logUntil_succ {files : List Path} {k : Nat} (full : files.length = (k + 1) * size) :
    logUntil disk size files (k + 1) =
      logUntil disk size files k ++ [.batchCommitted size ((k + 1) * size) ((k + 1) * size)] := by
  rw [logUntil, ← full, List.drop_length, List.take_nil]
  simp only [batchesLog, logUntil, warnings, List.flatMap_nil, List.append_nil, full]

end Batches

section Own

private theorem ownEvents_append (events more : List Event) :
    ownEvents (events ++ more) = ownEvents events ++ ownEvents more :=
  List.filter_append ..

private theorem walkEvents_append (events more : List Event) :
    walkEvents (events ++ more) = walkEvents events ++ walkEvents more :=
  List.filter_append ..

private theorem walkEvents_of_own {events : List Event} (own : ownEvents events = events) :
    walkEvents events = [] := by
  refine List.filter_eq_nil_iff.mpr fun event member => ?_
  simpa using List.filter_eq_self.mp own event member

private theorem ownEvents_warnings (disk : Disk) (files : List Path) :
    ownEvents (warnings disk files) = warnings disk files := by
  refine List.filter_eq_self.mpr fun event member => ?_
  obtain ⟨path, -, here⟩ := List.mem_flatMap.mp member
  cases read : disk.read path with
  | error e =>
    rw [read] at here
    rw [List.mem_singleton.mp here]
    rfl
  | ok bytes =>
    rw [read] at here
    cases here

private theorem ownEvents_restLog (size total : Nat) :
    ownEvents (restLog size total) = restLog size total := by
  unfold restLog
  split <;> rfl

private theorem ownEvents_stepLog (step : MaintenanceStep) (result : Except StoreError Unit) :
    ownEvents [stepLog step result] = [stepLog step result] := by
  cases result <;> rfl

end Own

def takenCalls (batches : List (List Record)) : List Call :=
  batches.map fun batch => .batch ⟨batch, .ok ()⟩

section Steps

variable {σ : Type} [FullTextCollection σ] (disk : Disk) (options : Options)

/-- An ingestion under way whose counts are in step with each other: so many files have been taken,
the batches that they fill have been taken, and the rest is held back. -/
structure InStep (size : Nat) (files : List Path) (p : Progress) (r : Recorded σ) : Prop where
  batchSize : p.writer.batchSize = size
  held : p.writer.buffer.length = files.length % size
  inserted : p.writer.inserted = files.length / size * size
  total : p.total = files.length
  calls : ∃ batches, r.calls = takenCalls batches ∧ batches.length = files.length / size

/-- A collection that has taken a number of batches and refused the one after them. -/
def Refused (k : Nat) (e : StoreError) (r : Recorded σ) : Prop :=
  ∃ batches batch, r.calls = takenCalls batches ++ [.batch ⟨batch, .error e⟩] ∧ batches.length = k

omit [FullTextCollection σ] in
private theorem InStep.start (size : Nat) (c : σ) :
    InStep size [] ⟨⟨size, [], 0, 0⟩, 0, 0⟩ (Recorded.start c) where
  batchSize := rfl
  held := (Nat.zero_mod _).symm
  inserted := by simp
  total := rfl
  calls := ⟨[], rfl, (Nat.zero_div _).symm⟩

private theorem calls_insertBatch (r : Recorded σ) (records : List Record) :
    (FullTextCollection.insertBatch r records).2.calls =
      r.calls ++ [.batch ⟨records, (FullTextCollection.insertBatch r records).1⟩] :=
  rfl

private theorem counts_below {size n : Nat} (below : n % size + 1 < size) :
    (n + 1) / size = n / size ∧ (n + 1) % size = n % size + 1 := by
  have whole := Nat.mod_add_div n size
  exact (Nat.div_mod_unique (by omega)).mpr ⟨by omega, below⟩

private theorem counts_full {size n : Nat} (full : n % size + 1 = size) :
    n + 1 = (n / size + 1) * size := by
  have whole := Nat.mod_add_div n size
  rw [Nat.succ_mul, Nat.mul_comm]
  omega

private theorem InStep.takeRecord {size : Nat} (positive : 1 ≤ size) {files : List Path}
    {p : Progress} {r : Recorded σ} (inStep : InStep size files p r) (path : Path) :
    let done := Ingestion.takeRecord ((Ingestion.builder options).build disk path) p r
    let soFar := logUntil disk size files (files.length / size) ++ done.events
    let files' := files ++ [path]
    match done.result with
    | .ok p' => InStep size files' p' done.state ∧ soFar = logUntil disk size files'
      (files'.length / size)
    | .error e => ∃ cause, e = .writeFailed cause ∧ Refused (files.length / size) cause done.state ∧
        (files.length / size + 1) * size = files'.length ∧
          soFar = logUntil disk size files' (files.length / size) := by
  obtain ⟨rfl, held, inserted, total, batches, calls, count⟩ := inStep
  have length : (files ++ [path]).length = files.length + 1 := List.length_append
  have begun : files.length / p.writer.batchSize * p.writer.batchSize ≤ files.length :=
    Nat.div_mul_le_self _ _
  have room : files.length < (files.length / p.writer.batchSize + 1) * p.writer.batchSize := by
    rw [Nat.mul_comm]
    exact Nat.lt_mul_div_succ _ positive
  have warned : logUntil disk _ (files ++ [path]) _ = _ := logUntil_concat begun room path
  rw [← readEvents_build options path] at warned
  generalize (Ingestion.builder options).build disk path = built at warned ⊢
  by_cases full : files.length % p.writer.batchSize + 1 = p.writer.batchSize
  · have filled := counts_full full
    have quotient : (files.length + 1) / p.writer.batchSize = files.length / p.writer.batchSize + 1 := by
      rw [filled, Nat.mul_div_cancel _ positive]
    have filling : (p.writer.buffer ++ [built.record]).length = p.writer.batchSize := by
      rw [List.length_append, held]
      exact full
    rw [Ingestion.takeRecord_of_full (Nat.le_of_eq filling.symm)]
    have answered := calls_insertBatch r (p.writer.buffer ++ [built.record])
    rw [calls] at answered
    rcases handed : FullTextCollection.insertBatch r (p.writer.buffer ++ [built.record]) with ⟨e | _, r'⟩
    · rw [handed] at answered
      exact ⟨e, rfl, ⟨batches, _, answered, count⟩, by rw [length, filled], warned.symm⟩
    · rw [handed] at answered
      have wrote : (p.flushed built).writer.inserted =
          (files.length / p.writer.batchSize + 1) * p.writer.batchSize := by
        rw [Progress.flushed, filling, inserted, Nat.succ_mul]
      refine ⟨⟨rfl, ?_, ?_, ?_, batches ++ [p.writer.buffer ++ [built.record]], ?_, ?_⟩, ?_⟩
      · rw [length, filled, Nat.mul_mod_left]
        rfl
      · rw [length, quotient, wrote]
      · rw [length, Progress.flushed, total]
      · rw [takenCalls, List.map_append]
        exact answered
      · rw [length, quotient, List.length_append, count]
        rfl
      · rw [length, quotient, logUntil_succ (length.trans filled), warned, wrote, total, filling,
          filled, List.append_assoc]
  · have below : files.length % p.writer.batchSize + 1 < p.writer.batchSize :=
      Nat.lt_of_le_of_ne (Nat.mod_lt _ positive) full
    obtain ⟨quotient, remainder⟩ := counts_below below
    have spare : ¬ p.writer.batchSize ≤ (p.writer.buffer ++ [built.record]).length := by
      rw [List.length_append, held]
      exact Nat.not_le.mpr below
    rw [Ingestion.takeRecord_of_room spare]
    refine ⟨⟨rfl, ?_, ?_, ?_, batches, calls, ?_⟩, ?_⟩
    · rw [length, remainder, Progress.holding, List.length_append, held]
      rfl
    · rw [length, quotient, Progress.holding, inserted]
    · rw [length, Progress.holding, total]
    · rw [length, quotient, count]
    · rw [length, quotient, warned]

private theorem ownEvents_takeRecord (path : Path) (p : Progress) (c : σ) :
    let events := (Ingestion.takeRecord ((Ingestion.builder options).build disk path) p c).events
    ownEvents events = events := by
  have read : ownEvents (Ingestion.readEvents ((Ingestion.builder options).build disk path)) =
      Ingestion.readEvents ((Ingestion.builder options).build disk path) := by
    rw [readEvents_build]
    exact ownEvents_warnings disk [path]
  unfold Ingestion.takeRecord
  rcases p.writer.push c ((Ingestion.builder options).build disk path).record with ⟨_ | _ | size, writer, c'⟩
  · exact read
  · exact read
  · simp only [ownEvents_append, read]
    rfl

section Limit

variable {maxFiles : Option Nat} {n : Nat} (within : ∀ most, maxFiles = some most → n ≤ most)

include within in
private theorem limitLog_within : limitLog maxFiles n = [] := by
  unfold limitLog
  split
  · rfl
  · rename_i most
    exact if_neg (Nat.not_lt.mpr (within most rfl))

include within in
private theorem limitLog_reached (reached : Ingestion.limitReached maxFiles n = true)
    {available : Nat} (more : n < available) :
    limitLog maxFiles available = [.fileLimitReached n] := by
  cases maxFiles with
  | none => simp [Ingestion.limitReached] at reached
  | some most =>
    have le : most ≤ n := by simpa [Ingestion.limitReached] using reached
    obtain rfl : most = n := Nat.le_antisymm le (within most rfl)
    exact if_pos more

private theorem within_succ (free : Ingestion.limitReached maxFiles n = false) :
    ∀ most, maxFiles = some most → n + 1 ≤ most := by
  rintro most rfl
  simpa [Ingestion.limitReached, Nat.succ_le_iff] using free

end Limit

private theorem InStep.takeFiles {size : Nat} (positive : 1 ≤ size) {source : List SourceItem}
    (walked : ∀ event, .note event ∈ source → event.isOfWalk = true) {files : List Path}
      {p : Progress} {r : Recorded σ}
    (inStep : InStep size files p r)
      (within : ∀ most, options.maxFiles = some most → files.length ≤ most) :
    let done := Ingestion.takeFiles options.maxFiles ((Ingestion.builder options).build disk) source p r
    let soFar := logUntil disk size files (files.length / size) ++ ownEvents done.events
    let all := files ++ firstFiles (remaining options.maxFiles files.length) source
    let available := files.length + (source.filterMap SourceItem.file?).length
    match done.result with
    | .ok p' => InStep size all p' done.state ∧
        soFar = logUntil disk size all (all.length / size) ++ limitLog options.maxFiles available
    | .error e => ∃ k cause, e = .writeFailed cause ∧ Refused k cause done.state ∧
      k < all.length / size ∧
        soFar = logUntil disk size all k := by
  induction source generalizing files p r with
  | nil =>
    rw [firstFiles_nil, List.append_nil]
    exact ⟨inStep, congrArg _ (limitLog_within within).symm⟩
  | cons item source ih =>
    obtain ⟨first, later⟩ : (∀ event, item = .note event → event.isOfWalk = true) ∧
        ∀ event, .note event ∈ source → event.isOfWalk = true :=
      ⟨fun event here => walked event (here ▸ List.mem_cons_self), fun event inside =>
        walked event (List.mem_cons_of_mem _ inside)⟩
    cases item with
    | note event =>
      have left_out : ∀ events, ownEvents ([event] ++ events) = ownEvents events := by
        intro events
        simp [ownEvents, first event rfl]
      simp only [Ingestion.takeFiles, Outcome.after, left_out, firstFiles_note, List.filterMap_cons, SourceItem.file?]
      exact ih later inStep within
    | file path =>
      simp only [List.filterMap_cons, SourceItem.file?, List.length_cons]
      by_cases reached : Ingestion.limitReached options.maxFiles files.length = true
      · have logged :
          limitLog options.maxFiles
          (files.length + ((source.filterMap SourceItem.file?).length + 1)) =
            [.fileLimitReached files.length] := limitLog_reached within reached (by omega)
        simp only [Ingestion.takeFiles, inStep.total, reached, if_true,
          firstFiles_of_limitReached reached, List.append_nil, logged]
        exact ⟨inStep, rfl⟩
      · have free : Ingestion.limitReached options.maxFiles files.length = false := by
          simpa using reached
        have step := inStep.takeRecord disk options positive path
        have own := ownEvents_takeRecord disk options path p r
        simp only [Ingestion.takeFiles, inStep.total, free, Bool.false_eq_true, if_false,
          firstFiles_of_not_limitReached free]
        rw [List.append_cons]
        have length : (files ++ [path]).length = files.length + 1 := List.length_append
        rcases taken : Ingestion.takeRecord ((Ingestion.builder options).build disk path) p r with
          ⟨events, r', e | p'⟩
        · rw [taken] at step own
          obtain ⟨cause, written, refused, filled, logged⟩ := step
          refine ⟨files.length / size, cause, written, refused, ?_, ?_⟩
          · refine (Nat.le_div_iff_mul_le positive).mpr ?_
            show (files.length / size + 1) * size ≤ _
            rw [filled, @List.length_append _ (files ++ [path])]
            exact Nat.le_add_right _ _
          · rw [logUntil_append (Nat.le_of_eq filled), ← logged]
            exact congrArg _ own
        · rw [taken] at step own
          obtain ⟨next, logged⟩ := step
          have rest := ih later next (length ▸ within_succ free)
          simp only [length] at logged own
          simp only [length, Nat.add_right_comm _ 1] at rest
          simp only [Outcome.after, ownEvents_append, own, ← List.append_assoc, logged, ← Nat.add_assoc]
          exact rest

private theorem walkEvents_takeFiles {source : List SourceItem}
    (walked : ∀ event, .note event ∈ source → event.isOfWalk = true) (p : Progress) (c : σ) :
    walkEvents
      (Ingestion.takeFiles options.maxFiles ((Ingestion.builder options).build disk) source p c).events <+:
      source.filterMap SourceItem.note? := by
  induction source generalizing p c with
  | nil => exact List.prefix_rfl
  | cons item source ih =>
    have later : ∀ event, .note event ∈ source → event.isOfWalk = true := fun event inside =>
      walked event (List.mem_cons_of_mem _ inside)
    cases item with
    | note event =>
      have first : walkEvents [event] = [event] := by
        simp [walkEvents, walked event List.mem_cons_self]
      simp only [Ingestion.takeFiles, Outcome.after, walkEvents_append, first, List.filterMap_cons, SourceItem.note?]
      exact (List.prefix_cons_inj event).mpr (ih later p c)
    | file path =>
      have own := walkEvents_of_own (ownEvents_takeRecord disk options path p c)
      simp only [Ingestion.takeFiles, List.filterMap_cons, SourceItem.note?]
      split
      · exact List.nil_prefix
      · rcases taken : Ingestion.takeRecord ((Ingestion.builder options).build disk path) p c with
          ⟨events, c', e | p'⟩
        · rw [taken] at own
          exact own ▸ List.nil_prefix
        · rw [taken] at own
          simp only [Outcome.after, walkEvents_append, own, List.nil_append]
          exact ih later p' c'

private theorem InStep.finishBatches {size : Nat} {files : List Path} {p : Progress}
    {r : Recorded σ} (inStep : InStep size files p r) :
    let done := Ingestion.finishBatches p r
    match done.result with
    | .ok _ => (∃ batches, done.state.calls = takenCalls batches) ∧
      done.events = restLog size files.length
    | .error e => ∃ cause, e = .writeFailed cause ∧ Refused (files.length / size) cause done.state ∧
      done.events = [] := by
  obtain ⟨-, held, inserted, total, batches, calls, count⟩ := inStep
  have answered := calls_insertBatch r p.writer.buffer
  rw [calls] at answered
  unfold Ingestion.finishBatches BatchWriter.finish
  by_cases none_left : files.length % size = 0
  · have empty : p.writer.buffer.isEmpty = true := by simpa [none_left] using held
    rw [if_pos empty]
    exact ⟨⟨batches, calls⟩, (if_pos none_left).symm⟩
  · have filled : ¬ p.writer.buffer.isEmpty = true := by
      rw [List.isEmpty_iff_length_eq_zero, held]
      exact none_left
    have whole := Nat.div_add_mod' files.length size
    rw [if_neg filled]
    simp only [BatchWriter.flush]
    rcases handed : FullTextCollection.insertBatch r p.writer.buffer with ⟨e | _, r'⟩
    · rw [handed] at answered
      exact ⟨e, rfl, ⟨batches, _, answered, count⟩, rfl⟩
    · rw [handed] at answered
      refine ⟨⟨batches ++ [p.writer.buffer], ?_⟩, ?_⟩
      · rw [takenCalls, List.map_append]
        exact answered
      · simp only [restLog, if_neg none_left, held, inserted, total, whole]

private theorem conclude_log (weights : Weights) (p : Progress) (r : Recorded σ) :
    let done := Ingestion.conclude weights p r
    ∃ (report : Report) (rank rebuild optimize : Except StoreError Unit), done.result = .ok report ∧
      done.state.calls = r.calls ++ [.step .setRank rank, .step .rebuild rebuild,
        .step .optimize optimize] ∧
      done.events = [stepLog .setRank rank, stepLog .rebuild rebuild, stepLog .optimize optimize,
        .ingestionFinished report.total report.inserted report.readFailures] := by
  intro done
  have logged : ∀ o : StepOutcome, o.event = stepLog o.step o.result := by
    rintro ⟨step, _ | _⟩ <;> rfl
  refine ⟨_, _, _, _, rfl, Maintenance.calls_takeAll weights MaintenanceStep.order r, ?_⟩
  simp only [done, Ingestion.conclude, Maintenance.run, MaintenanceStep.order, Maintenance.takeAll, List.map_cons,
    List.map_nil, logged]
  rfl

end Steps

/-- The log of an ingestion tells what has happened, whatever the files are and whichever batches
and steps the collection refuses. After the start there are for each full batch the warnings about
its files, and then the batch once it is taken, with as many records committed as files processed.
The limit is logged just if a further file is there when it is reached, and the records that fill no
batch are logged with the total. If no batch is refused, the steps of maintenance follow, and the
counts that are reported come last; if one is refused, the log ends with the warnings about its
files. Besides, there is what the walk logs on the way, which comes from the source. -/
theorem log_of_ingest {σ : Type} [FullTextCollection σ] (options : Options)
    (positive : 1 ≤ options.batchSize) (fits : options.batchSize ≤ BatchWriter.greatestBatch)
    (disk : Disk) (source : List SourceItem)
    (walked : ∀ event, .note event ∈ source → event.isOfWalk = true) (c : σ) :
    let build := (Ingestion.builder options).build disk
    let done := Ingestion.ingest options build source c
    let calls := (Ingestion.ingest options build source (Recorded.start c)).state.calls
    let files := firstFiles options.maxFiles source
    let full := files.length / options.batchSize
    let limit := limitLog options.maxFiles (source.filterMap SourceItem.file?).length
    walkEvents done.events <+: source.filterMap SourceItem.note? ∧
    ((∃ (report : Report) (batches : List (List Record)) (rank rebuild optimize : Except StoreError Unit),
      done.result = .ok report ∧
      calls = takenCalls batches ++ [.step .setRank rank, .step .rebuild rebuild,
        .step .optimize optimize] ∧
      ownEvents done.events = [.ingestionStarted options.batchSize] ++ logUntil disk
        options.batchSize files full ++
        limit ++ restLog options.batchSize files.length ++
        [stepLog .setRank rank, stepLog .rebuild rebuild, stepLog .optimize optimize] ++
        [.ingestionFinished report.total report.inserted report.readFailures]) ∨
    (∃ (cause : StoreError) (batches : List (List Record)) (batch : List Record),
      done.result = .error (.writeFailed cause) ∧
      calls = takenCalls batches ++ [.batch ⟨batch, .error cause⟩] ∧ batches.length ≤ full ∧
      ownEvents done.events = [.ingestionStarted options.batchSize] ++
        logUntil disk options.batchSize files batches.length ++ if batches.length < full then []
          else limit)) := by
  intro build done calls files full limit
  have started := BatchWriter.start_of_fits positive fits
  have taking := (InStep.start options.batchSize c).takeFiles disk options positive walked
    (fun most _ => Nat.zero_le most)
  simp only [List.length_nil, remaining_zero, List.nil_append, Nat.zero_add, Nat.zero_div] at taking
  have none_logged : logUntil disk options.batchSize [] 0 = [] := by
    simp [logUntil, batchesLog, warnings]
  rw [none_logged, List.nil_append] at taking
  have same : done = (Ingestion.ingest options build source (Recorded.start c)).mapState
    Recorded.collection :=
    ingest_start options build source c
  rw [same]
  have walking := walkEvents_takeFiles disk options walked ⟨⟨options.batchSize, [], 0, 0⟩, 0, 0⟩
    (Recorded.start c)
  simp only [calls, Outcome.mapState, Ingestion.ingest, started, build]
  generalize Ingestion.takeFiles options.maxFiles ((Ingestion.builder options).build disk) source
    ⟨⟨options.batchSize, [], 0, 0⟩, 0, 0⟩ (Recorded.start c) = taken at taking walking ⊢
  rcases taken with ⟨events, r, e | p⟩
  · obtain ⟨k, cause, written, ⟨batches, batch, calls, rfl⟩, below, logged⟩ := taking
    refine ⟨walking, .inr ⟨cause, batches, batch, congrArg Except.error written, calls,
      Nat.le_of_lt below, ?_⟩⟩
    rw [if_pos below, List.append_nil, ← logged]
    rfl
  · obtain ⟨inStep, logged⟩ := taking
    have finishing := InStep.finishBatches (r := r) inStep
    simp only [Outcome.andThen]
    generalize Ingestion.finishBatches p r = finished at finishing ⊢
    rcases finished with ⟨events', r', e | p'⟩
    · obtain ⟨cause, written, ⟨batches, batch, calls, count⟩, nothing⟩ := finishing
      obtain rfl : events' = [] := nothing
      refine ⟨?_, .inr ⟨cause, batches, batch, congrArg Except.error written, calls,
        Nat.le_of_eq count, ?_⟩⟩
      · show walkEvents ([.ingestionStarted options.batchSize] ++ (events ++ [])) <+: _
        rwa [List.append_nil]
      · show ownEvents ([.ingestionStarted options.batchSize] ++ (events ++ [])) = _
        rw [if_neg (by rw [count]; exact Nat.lt_irrefl full), count, List.append_nil,
          ownEvents_append, logged, List.append_assoc]
        rfl
    · obtain ⟨⟨batches, calls⟩, rest⟩ := finishing
      obtain rfl : events' = restLog options.batchSize files.length := rest
      obtain ⟨report, rank, rebuild, optimize, result, called, concluded⟩ :=
        conclude_log options.weights p' r'
      have own : ownEvents (Ingestion.conclude options.weights p' r').events =
          [stepLog .setRank rank, stepLog .rebuild rebuild, stepLog .optimize optimize] ++
            [.ingestionFinished report.total report.inserted report.readFailures] := by
        rw [concluded]
        show ownEvents
          ([stepLog .setRank rank] ++ ([stepLog .rebuild rebuild] ++ ([stepLog .optimize optimize] ++
          [.ingestionFinished report.total report.inserted report.readFailures]))) = _
        simp only [ownEvents_append, ownEvents_stepLog]
        rfl
      have tended : walkEvents (Ingestion.conclude options.weights p' r').events = [] :=
        walkEvents_of_own (own.trans concluded.symm)
      refine ⟨?_, .inl ⟨report, batches, rank, rebuild, optimize, result,
        called.trans (congrArg (· ++ _) calls), ?_⟩⟩
      · show walkEvents ([.ingestionStarted options.batchSize] ++
          ((events ++ restLog options.batchSize files.length) ++ (Ingestion.conclude options.weights p' r').events)) <+: _
        simp only [walkEvents_append, walkEvents_of_own (ownEvents_restLog _ _), tended, List.append_nil]
        exact walking
      · show ownEvents ([.ingestionStarted options.batchSize] ++
          ((events ++ restLog options.batchSize files.length) ++ (Ingestion.conclude options.weights p' r').events)) = _
        simp only [ownEvents_append, logged, ownEvents_restLog, own, List.append_assoc]
        rfl

/-- Three of four files in batches of two, the second and the third of which are missing. The
collection refuses the last batch, or else a step of the maintenance. -/
theorem log_of_ingest_of_four_files :
    let options : Options := { batchSize := 2, maxFiles := some 3 }
    let disk : Disk := ⟨[([[97]], .file (.bytes [104, 105]))], []⟩
    let skipped : Event := .entrySkipped ⟨[47]⟩ ⟨[120]⟩ .notFound
    let source : List SourceItem := .note skipped :: [[97], [98], [99], [100]].map fun name => .file ⟨name⟩
    let log (collection : MemoryCollection) :=
      (Ingestion.ingest options ((Ingestion.builder options).build disk) source collection).events
    let lost (name : UInt8) : Event := .fileUnreadable ⟨[name]⟩ .notFound
    let before : List Event :=
      [.ingestionStarted 2, lost 98, .batchCommitted 2 2 2, lost 99, .fileLimitReached 3]
    1 ≤ options.batchSize ∧ options.batchSize ≤ BatchWriter.greatestBatch ∧
    (∀ event, .note event ∈ source → event.isOfWalk = true) ∧
    ownEvents (log (.refusing [2] [])) = before ∧ walkEvents (log (.refusing [2] [])) <+: [skipped] ∧
    ∃ report : Report, ownEvents (log (.refusing [] ["optimize"])) = before ++ [.finalBatchCommitted 1 3 3] ++
      [.stepDone .setRank, .stepDone .rebuild, .stepFailed .optimize .notReadOnly,
        .ingestionFinished report.total report.inserted report.readFailures] := by
  intro options disk skipped source log lost before
  have positive : 1 ≤ options.batchSize := by decide
  have fits : options.batchSize ≤ BatchWriter.greatestBatch := by decide
  have walked : ∀ event, .note event ∈ source → event.isOfWalk = true := by
    intro event member
    obtain rfl : event = skipped := by simpa [source] using member
    rfl
  have files : firstFiles options.maxFiles source = [⟨[97]⟩, ⟨[98]⟩, ⟨[99]⟩] := rfl
  have full : (firstFiles options.maxFiles source).length / options.batchSize = 1 := by decide
  have limit : limitLog options.maxFiles (source.filterMap SourceItem.file?).length
    = [.fileLimitReached 3] := by decide
  have rest : restLog 2 3 = [.finalBatchCommitted 1 3 3] := by decide
  have logged : [.ingestionStarted 2] ++ logUntil disk 2 [⟨[97]⟩, ⟨[98]⟩,
    ⟨[99]⟩] 1 ++ [.fileLimitReached 3] = before := by
    cbv
  refine ⟨positive, fits, walked, ?_⟩
  obtain ⟨walks, ⟨report, batches, rank, rebuild, optimize, ended, -⟩ | ⟨cause, batches, batch, -,
    calls, -, refused⟩⟩ :=
    log_of_ingest options positive fits disk source walked (MemoryCollection.refusing [2] [])
  · cases ended
  have two : 2 = (takenCalls batches ++ [Call.batch ⟨batch, .error cause⟩]).length :=
    congrArg List.length calls
  have one : batches.length = 1 := by simpa [takenCalls] using two.symm
  rw [one, full, files, limit] at refused
  refine ⟨refused.trans logged, walks, ?_⟩
  obtain ⟨-, ⟨report, batches, rank, rebuild, optimize, -, calls, finished⟩ | ⟨cause, batches,
    batch, ended, -⟩⟩ :=
    log_of_ingest options positive fits disk source walked
      (MemoryCollection.refusing [] ["optimize"])
  · obtain ⟨rfl, rfl, rfl⟩ : optimize = .error .notReadOnly ∧ rebuild = .ok () ∧ rank = .ok () := by
      have last : [Call.step .optimize (.error .notReadOnly), .step .rebuild (.ok ()),
        .step .setRank (.ok ())] =
          (takenCalls batches ++
            [Call.step .setRank rank, .step .rebuild rebuild,
              .step .optimize optimize]).reverse.take 3 :=
        congrArg (fun calls => calls.reverse.take 3) calls
      simpa [eq_comm] using last
    rw [full, files, limit] at finished
    refine ⟨report, finished.trans ?_⟩
    rw [List.append_assoc, ← logged, ← rest]
    rfl
  · cases ended

/-- A walk that cannot enter a directory says so in the log. An ingestion for whose batches no room
can be made says no more than that it has started, although the limit is reached with a file
there. -/
theorem log_of_walk_and_overflow :
    let disk : Disk := ⟨[([[97]], .file (.bytes [104, 105]))], []⟩
    let skipped : Event := .entrySkipped ⟨[47]⟩ ⟨[47, 120]⟩ .nameTooLong
    let log (options : Options) (source : List SourceItem) :=
      (Ingestion.ingest options ((Ingestion.builder options).build disk) source (MemoryCollection.refusing [] [])).events
    log { batchSize := 2 } [.note skipped] =
        [.ingestionStarted 2, skipped, .stepDone .setRank, .stepDone .rebuild, .stepDone .optimize,
          .ingestionFinished 0 0 0] ∧
      log { batchSize := 2 ^ 64 - 1, maxFiles := some 0 } [.file ⟨[97]⟩]
        = [.ingestionStarted (2 ^ 64 - 1)] :=
  ⟨rfl, rfl⟩

end TextArchive.Ingest
