import TextArchive.Proofs.Ingest.Handover

/-!
Refusal: the first batch that is refused ends an ingestion. What was committed before it stays,
nothing more is asked of the collection, and no file after those of the refused batch has had a part
in what came of it.
-/

set_option autoImplicit false
set_option relaxedAutoImplicit false

namespace TextArchive.Ingest

open TextArchive.File (Disk Path)
open TextArchive.Store (StoreError)

/-- Batches are added whole or not at all to what a collection holds of each record. -/
structure AllOrNothing {σ α : Type} [FullTextCollection σ] (holds : σ → List α)
    (view : Record → α) : Prop where
  taken : ∀ c records, (FullTextCollection.insertBatch c records).1 = .ok () →
    holds (FullTextCollection.insertBatch c records).2 = holds c ++ records.map view
  refused : ∀ c records e, (FullTextCollection.insertBatch c records).1 = .error e →
    holds (FullTextCollection.insertBatch c records).2 = holds c

def SourceItem.withPath (path : Path → Path) : SourceItem → SourceItem
  | .file p => .file (path p)
  | .note event => .note event

/-- How many records are handed over, those of the first refused batch included. -/
def handedOver {σ : Type} [FullTextCollection σ] (collection : σ) : List (List Record) → Nat
  | [] => 0
  | batch :: batches =>
    match FullTextCollection.insertBatch collection batch with
    | (.ok (), collection) => batch.length + handedOver collection batches
    | (.error _, _) => batch.length

private theorem length_le_handedOver {σ : Type} [FullTextCollection σ] (c : σ) (batch : List Record)
    (batches : List (List Record)) : batch.length ≤ handedOver c (batch :: batches) := by
  simp only [handedOver]
  rcases FullTextCollection.insertBatch c batch with ⟨e | _, c'⟩ <;> simp

private theorem exists_cut_cons {α : Type} (size : Nat) (held : List α) (x : α) (xs : List α) :
    ∃ first batches, cut size held (x :: xs) = first :: batches ∧ held.length < first.length := by
  induction xs generalizing held x with
  | nil =>
    simp only [cut]
    split
    · exact ⟨_, _, rfl, by simp⟩
    · exact ⟨held ++ [x], [], by simp, by simp⟩
  | cons y ys ih =>
    rw [cut]
    split
    · exact ⟨_, _, rfl, by simp⟩
    · obtain ⟨first, batches, equal, longer⟩ := ih (held ++ [x]) y
      exact ⟨first, batches, equal, by simp at longer; omega⟩

namespace Ingestion

variable {σ : Type} [FullTextCollection σ]

private theorem takeFiles_of_firstFiles_eq_nil {maxFiles : Option Nat} {source : List SourceItem}
    {p : Progress} (none_left : firstFiles (remaining maxFiles p.total) source = [])
    (build build' : Path → BuiltRecord) (path : Path → Path) (c : σ) :
    takeFiles maxFiles build' (source.map (·.withPath path)) p c =
    takeFiles maxFiles build source p c := by
  induction source with
  | nil => rfl
  | cons item source ih =>
    cases item with
    | note event =>
      rw [firstFiles_note] at none_left
      rw [List.map_cons, SourceItem.withPath, takeFiles, takeFiles, ih none_left]
    | file file =>
      by_cases reached : limitReached maxFiles p.total = true
      · simp only [List.map_cons, SourceItem.withPath, takeFiles, reached, if_true]
      · rw [firstFiles_of_not_limitReached (by simpa using reached)] at none_left
        simp at none_left

private theorem takeFiles_depends {maxFiles : Option Nat} {build build' : Path → BuiltRecord}
    {before rest : List SourceItem} {p : Progress} {c : σ} {e : StoreError}
    (room : p.writer.buffer.length < p.writer.batchSize)
    (same : ∀ path ∈ before.filterMap SourceItem.file?,
    build' path = build path) (path : Path → Path)
    (refused : (insertEach c (p.batches
      ((firstFiles (remaining maxFiles p.total) (before ++ rest)).map build))).1 = .error e)
    (count : handedOver c (p.batches ((firstFiles (remaining maxFiles p.total) (before ++ rest)).map build)) =
      p.writer.buffer.length + (before.filterMap SourceItem.file?).length) :
    (takeFiles maxFiles build' (before ++ rest.map (·.withPath path)) p c).andThen finishBatches =
      (takeFiles maxFiles build (before ++ rest) p c).andThen finishBatches := by
  induction before generalizing p c with
  | nil =>
    rw [List.nil_append] at refused count
    rw [List.nil_append, List.nil_append, takeFiles_of_firstFiles_eq_nil]
    by_contra more
    obtain ⟨file, files, equal⟩ := List.exists_cons_of_ne_nil more
    obtain ⟨first, batches, equal', longer⟩ := exists_cut_cons p.writer.batchSize p.writer.buffer
      (build file).record ((files.map build).map (·.record))
    have least := length_le_handedOver c first batches
    rw [← equal'] at least
    simp only [equal, Progress.batches, List.map_cons, List.filterMap_nil, List.length_nil] at count
    omega
  | cons item before ih =>
    cases item with
    | note event =>
      simp only [List.cons_append, firstFiles_note] at refused count
      simp only [List.cons_append, takeFiles, Outcome.andThen_after, ih room same refused count]
    | file file =>
      have files : (SourceItem.file file :: before).filterMap SourceItem.file? =
          file :: before.filterMap SourceItem.file? := rfl
      rw [files, List.forall_mem_cons] at same
      obtain ⟨here, same⟩ := same
      simp only [List.cons_append] at refused count ⊢
      rw [files, List.length_cons] at count
      by_cases reached : limitReached maxFiles p.total = true
      · simp only [takeFiles, reached, if_true]
      · have free : limitReached maxFiles p.total = false := by simpa using reached
        rw [firstFiles_of_not_limitReached free, List.map_cons] at refused count
        simp only [takeFiles, free, Bool.false_eq_true, if_false, here]
        by_cases full : p.writer.batchSize ≤ (p.writer.buffer ++ [(build file).record]).length
        · rw [Progress.batches_cons_of_full full] at refused count
          rw [takeRecord_of_full full]
          simp only [insertEach, handedOver] at refused count
          rcases answered : FullTextCollection.insertBatch c
            (p.writer.buffer ++ [(build file).record]) with
            ⟨e' | _, c'⟩
          · rfl
          · rw [answered] at refused count
            simp only [Outcome.andThen_after]
            congr 1
            refine ih (p := p.flushed (build file)) ?_ same refused ?_
            · exact Nat.lt_of_le_of_lt (Nat.zero_le _) room
            · simp only [List.length_append, List.length_cons, List.length_nil] at count
              simp only [Progress.flushed, List.length_nil] at count ⊢
              omega
        · rw [Progress.batches_cons_of_room full] at refused count
          rw [takeRecord_of_room full]
          simp only [Outcome.andThen_after]
          congr 1
          refine ih (p := p.holding (build file)) (Nat.lt_of_not_le full) same refused ?_
          simp only [Progress.holding, List.length_append, List.length_cons, List.length_nil] at count ⊢
          omega

private theorem ingest_depends {options : Options} (positive : 1 ≤ options.batchSize)
    (fits : options.batchSize ≤ BatchWriter.greatestBatch) {build build' : Path → BuiltRecord}
    {before rest : List SourceItem} {c : σ} {e : StoreError}
    (same : ∀ path ∈ before.filterMap SourceItem.file?,
    build' path = build path) (path : Path → Path)
    (refused : (insertEach c (cut options.batchSize []
      (((firstFiles options.maxFiles (before ++ rest)).map build).map (·.record)))).1 = .error e)
    (count : handedOver c (cut options.batchSize []
      (((firstFiles options.maxFiles (before ++ rest)).map build).map (·.record))) =
        (before.filterMap SourceItem.file?).length) :
    ingest options build' (before ++ rest.map (·.withPath path)) c = ingest options build
    (before ++ rest) c := by
  have started := BatchWriter.start_of_fits positive fits
  have room : ([] : List Record).length < options.batchSize := positive
  have handed := takeFiles_depends (p := ⟨⟨options.batchSize, [], 0, 0⟩, 0, 0⟩) room same path
    (by rw [remaining_zero]; exact refused)
    (by rw [remaining_zero, List.length_nil, Nat.zero_add]; exact count)
  simp only [ingest, started, handed]

end Ingestion

section Recorded

variable {σ : Type} [FullTextCollection σ]

private theorem holds_insertEach {α : Type} {holds : σ → List α} {view : Record → α}
    (whole : AllOrNothing holds view) (old : List α) (batches : List (List Record)) {r : Recorded σ}
    (now : holds r.collection = old ++ (committed r.attempts).map view) :
    holds (insertEach r batches).2.collection =
      old ++ (committed (insertEach r batches).2.attempts).map view := by
  induction batches generalizing r with
  | nil => exact now
  | cons batch batches ih =>
    have taken := whole.taken r.collection batch
    have refused := whole.refused r.collection batch
    rcases answered : FullTextCollection.insertBatch r.collection batch with ⟨e | _, c⟩
    · rw [answered] at refused
      simp only [insertEach, FullTextCollection.insertBatch, Recorded.answer, answered]
      simpa [committed, Recorded.attempts, Call.attempt?, Except.isOk, Except.toBool,
        refused e rfl] using now
    · rw [answered] at taken
      have next : holds (⟨c, r.calls ++ [.batch ⟨batch, .ok ()⟩]⟩ : Recorded σ).collection =
          old ++ (committed (⟨c, r.calls ++ [.batch ⟨batch,
            .ok ()⟩]⟩ : Recorded σ).attempts).map view := by
        simp only [taken rfl, now]
        simp [committed, Recorded.attempts, Call.attempt?, Except.isOk, Except.toBool]
      simp only [insertEach, FullTextCollection.insertBatch, Recorded.answer, answered]
      exact ih next

private theorem handedOver_recorded (batches : List (List Record)) (r : Recorded σ) :
    ((insertEach r batches).2.attempts.flatMap (·.records)).length =
      (r.attempts.flatMap (·.records)).length + handedOver r batches := by
  induction batches generalizing r with
  | nil => rfl
  | cons batch batches ih =>
    rcases answered : FullTextCollection.insertBatch r.collection batch with ⟨e | _, c⟩
    · simp [insertEach, handedOver, FullTextCollection.insertBatch, Recorded.answer,
        answered, Recorded.attempts, Call.attempt?]
    · simp only [insertEach, handedOver, FullTextCollection.insertBatch, Recorded.answer,
        answered, ih]
      simp [Recorded.attempts, Call.attempt?, Nat.add_assoc]

private theorem calls_of_refused {options : Options} (positive : 1 ≤ options.batchSize)
    {build : Path → BuiltRecord} {source : List SourceItem} {c : σ} {k : Nat} {batch : List Record}
    {e : StoreError}
    (refused : (Ingestion.ingest options build source (Recorded.start c)).state.attempts[k]? =
      some ⟨batch, .error e⟩) :
    let batches := cut options.batchSize [] (((firstFiles options.maxFiles source).map build).map
      (·.record))
    let done := Ingestion.ingest options build source (Recorded.start c)
    options.batchSize ≤ BatchWriter.greatestBatch ∧
    ∃ before after, batches = before ++ batch :: after ∧ before.length = k ∧
      done.result = .error (.writeFailed e) ∧
        insertEach (Recorded.start c) batches = (.error e, done.state) ∧
      done.state.calls =
        (before.map fun batch => Call.batch ⟨batch, .ok ()⟩) ++ [.batch ⟨batch, .error e⟩] := by
  have fits : options.batchSize ≤ BatchWriter.greatestBatch := by
    refine Nat.le_of_not_lt fun overflow => ?_
    rw [Ingestion.ingest_overflow overflow] at refused
    simp [Recorded.attempts, Recorded.start] at refused
  refine ⟨fits, ?_⟩
  rcases ingest_recorded positive fits build source c with
    ⟨attempts, -⟩ | ⟨before, batch', after, e', batches, result, handed, calls⟩
  · rw [attempts, List.getElem?_map] at refused
    obtain ⟨_, -, equal⟩ := Option.map_eq_some_iff.mp refused
    simp at equal
  · have attempts : (Ingestion.ingest options build source (Recorded.start c)).state.attempts =
        (before.map fun batch => ⟨batch, .ok ()⟩) ++ [⟨batch', .error e'⟩] := by
      simp [Recorded.attempts, calls, List.filterMap_map, Function.comp_def, Call.attempt?]
    rw [attempts] at refused
    rcases Nat.lt_or_ge k before.length with earlier | later
    · rw [List.getElem?_append_left (by simpa using earlier), List.getElem?_map] at refused
      obtain ⟨_, -, equal⟩ := Option.map_eq_some_iff.mp refused
      simp at equal
    · rw [List.getElem?_append_right (by simpa using later), List.length_map,
        List.getElem?_singleton] at refused
      split at refused
      · obtain ⟨rfl, rfl⟩ : batch' = batch ∧ e' = e := by simpa using refused
        exact ⟨before, after, batches, by omega, result, handed, calls⟩
      · simp at refused

/-- An ingestion one of whose batches is refused fails for that reason. The collection keeps what
was committed before, which are full batches of the first records; it is asked for nothing more; and
the files after those of the refused batch have no part in the outcome, wherever they are and
whatever they hold. -/
theorem ingest_refused {α : Type} {holds : σ → List α} {view : Record → α}
    (whole : AllOrNothing holds view) (options : Options) (positive : 1 ≤ options.batchSize)
    (build : Path → BuiltRecord) (source : List SourceItem) (c : σ) (k : Nat) (batch : List Record)
    (e : StoreError)
    (refused : (Ingestion.ingest options build source (Recorded.start c)).state.attempts[k]? =
      some ⟨batch, .error e⟩) :
    let done := Ingestion.ingest options build source c
    let calls := (Ingestion.ingest options build source (Recorded.start c)).state.calls
    let records := (firstFiles options.maxFiles source).map fun path => (build path).record
    done.result = .error (.writeFailed e) ∧
    holds done.state = holds c ++ (records.take (k * options.batchSize)).map view ∧
    (batch = (records.drop (k * options.batchSize)).take options.batchSize ∧ 1 ≤ batch.length) ∧
    (calls.length = k + 1 ∧ ∀ call ∈ calls, ∃ attempt, call = .batch attempt) ∧
    ∀ before rest, source = before ++ rest →
      (before.filterMap SourceItem.file?).length = k * options.batchSize + batch.length →
      ∀ (build' : Path → BuiltRecord) (path : Path → Path),
        (∀ file ∈ before.filterMap SourceItem.file?, build' file = build file) →
        Ingestion.ingest options build' (before ++ rest.map (·.withPath path)) c = done := by
  intro done calls records
  obtain ⟨fits, before, after, batches, rfl, result, handed, all_calls⟩ :=
    calls_of_refused positive refused
  have mapped : ((firstFiles options.maxFiles source).map build).map (·.record) = records :=
    List.map_map
  rw [mapped] at batches handed
  obtain ⟨kept, next⟩ := eq_take_of_cut_eq_append positive batches
  have attempts : (Ingestion.ingest options build source (Recorded.start c)).state.attempts =
      (before.map fun batch => ⟨batch, .ok ()⟩) ++ [⟨batch, .error e⟩] := by
    simp [Recorded.attempts, all_calls, List.filterMap_map, Function.comp_def, Call.attempt?]
  have recorded : done = (Ingestion.ingest options build source (Recorded.start c)).mapState
    Recorded.collection :=
    ingest_start options build source c
  refine ⟨?_, ?_, ⟨next, ?_⟩, ⟨?_, ?_⟩, ?_⟩
  · rw [recorded]
    exact result
  · have grown := holds_insertEach whole (holds c) (cut options.batchSize [] records)
      (r := Recorded.start c) (by simp [committed, Recorded.attempts, Recorded.start])
    have taken : committed ((before.map fun batch => ⟨batch, .ok ()⟩) ++ [⟨batch, .error e⟩])
      = before.flatten := by
      simp [committed, List.filter_map, Function.comp_def, Except.isOk,
        Except.toBool, List.flatMap_map]
    rw [handed, attempts, taken, kept] at grown
    rw [recorded]
    exact grown
  · have member : batch ∈ cut options.batchSize [] records := by
      rw [batches]
      simp
    exact length_pos_of_mem_cut member
  · simp [calls, all_calls]
  · intro call member
    simp only [calls, all_calls, List.mem_append, List.mem_map, List.mem_singleton] at member
    rcases member with ⟨_, -, rfl⟩ | rfl
    · exact ⟨_, rfl⟩
    · exact ⟨_, rfl⟩
  · intro front rest equal count build' path same
    subst equal
    rw [ingest_start, recorded]
    congr 1
    have refused' := congrArg Prod.fst handed
    rw [← mapped] at refused'
    refine Ingestion.ingest_depends positive fits same path refused' ?_
    have all := handedOver_recorded (cut options.batchSize [] records) (Recorded.start c)
    rw [handed, attempts] at all
    have full := length_flatten_of_cut_eq_append positive batches
    rw [mapped, count, ← full]
    simpa [Recorded.attempts, Recorded.start, List.flatMap_map, Function.comp_def] using all.symm

end Recorded

theorem MemoryCollection.allOrNothing : AllOrNothing MemoryCollection.records id where
  taken m records ok := by
    simp only [FullTextCollection.insertBatch, MemoryCollection.insertBatch] at ok ⊢
    split at ok
    · simp at ok
    · rename_i free
      rw [if_neg free]
      simp [MemoryCollection.records]
  refused m records e error := by
    simp only [FullTextCollection.insertBatch, MemoryCollection.insertBatch] at error ⊢
    split at error
    · rename_i full
      rw [if_pos full]
      rfl
    · simp at error

/-- Of five files in batches of two, the second batch is refused: the first two records stay. -/
theorem ingest_refused_at_second_batch :
    let options : Options := { batchSize := 2 }
    let disk : Disk := ⟨[([[97]], .file (.bytes [104, 105])), ([[100]], .socket)], []⟩
    let build := (Ingestion.builder options).build disk
    let source : List SourceItem := [[97], [98], [99], [100], [101]].map fun name => .file ⟨name⟩
    let collection := MemoryCollection.refusing [2] []
    1 ≤ options.batchSize ∧
    (Ingestion.ingest options build source (Recorded.start collection)).state.attempts[1]? =
      some ⟨[(build ⟨[99]⟩).record, (build ⟨[100]⟩).record], .error .notReadOnly⟩ ∧
    (Ingestion.ingest options build source collection).result = .error (.writeFailed .notReadOnly) ∧
    (Ingestion.ingest options build source collection).state.records =
      [(build ⟨[97]⟩).record, (build ⟨[98]⟩).record] := by
  intro options disk build source collection
  have positive : 1 ≤ options.batchSize := by decide
  have refused : (Ingestion.ingest options build source
    (Recorded.start collection)).state.attempts[1]? =
      some ⟨[(build ⟨[99]⟩).record, (build ⟨[100]⟩).record], .error .notReadOnly⟩ := rfl
  obtain ⟨result, kept, -⟩ :=
    ingest_refused MemoryCollection.allOrNothing options positive build source
      collection 1 _ _ refused
  exact ⟨positive, refused, result, kept⟩

end TextArchive.Ingest
