import TextArchive.Proofs.Ingest.Refusal

/-!
The accounts of a writer. Whatever records it is given, whenever it is told to finish and whichever
of its batches are refused, the batches that it has handed over and the records held back are the
records it was given, and its counters, its answers and the collection agree on which of the batches
were taken.
-/

set_option autoImplicit false
set_option relaxedAutoImplicit false

namespace TextArchive.Ingest

open TextArchive.Store (StoreError)

inductive WriterCall where
  | push (record : Record)
  | finish

def WriterCall.record? : WriterCall → Option Record
  | .push record => some record
  | .finish => none

/-- Whether a call hands over what is held back then: a push when a batch is full, the end when
anything is left. -/
def WriterCall.HandsOver (size : Nat) (held : List Record) : WriterCall → Prop
  | .push _ => size ≤ held.length
  | .finish => held ≠ []

namespace BatchWriter

section Calls

variable {σ : Type} [FullTextCollection σ]

def perform (w : BatchWriter) (collection : σ) : WriterCall → Committed × BatchWriter × σ
  | .push record => w.push collection record
  | .finish => w.finish collection

/-- Carry out calls one after the other, whatever each of them gives. -/
def performAll (w : BatchWriter) (collection : σ) (calls : List WriterCall) : BatchWriter × σ :=
  calls.foldl (fun state call => (state.1.perform state.2 call).2) (w, collection)

private theorem performAll_cons (w : BatchWriter) (c : σ) (call : WriterCall)
    (calls : List WriterCall) :
    w.performAll c (call :: calls) = (w.perform c call).2.1.performAll
    (w.perform c call).2.2 calls := rfl

private theorem perform_cases (w : BatchWriter) (c : σ) (call : WriterCall) :
    let held := w.buffer ++ call.record?.toList
    (¬ call.HandsOver w.batchSize held ∧
      w.perform c call = (.ok none, { w with buffer := held }, c)) ∨
    call.HandsOver w.batchSize held ∧ ∃ c',
      (FullTextCollection.insertBatch c held = (.ok (), c') ∧ w.perform c call =
        (.ok (some held.length), ⟨w.batchSize, [], w.inserted + held.length, w.batches + 1⟩, c')) ∨
      ∃ e, FullTextCollection.insertBatch c held = (.error e, c') ∧
        w.perform c call = (.error (.writeFailed e), { w with buffer := [] }, c') := by
  have flushed : ∀ held, ∃ c',
      (FullTextCollection.insertBatch c held = (.ok (), c') ∧ flush { w with buffer := held } c =
        (.ok (some held.length), ⟨w.batchSize, [], w.inserted + held.length, w.batches + 1⟩, c')) ∨
      ∃ e, FullTextCollection.insertBatch c held = (.error e, c') ∧
        flush { w with buffer := held } c =
          (.error (.writeFailed e), { w with buffer := [] }, c') := by
    intro held
    rcases answered : FullTextCollection.insertBatch c held with ⟨e | _, c'⟩
    · exact ⟨c', .inr ⟨e, rfl, by simp only [flush, answered]⟩⟩
    · exact ⟨c', .inl ⟨rfl, by simp only [flush, answered]⟩⟩
  cases call with
  | push record =>
    simp only [WriterCall.HandsOver, WriterCall.record?, Option.toList_some]
    by_cases full : w.batchSize ≤ (w.buffer ++ [record]).length
    · right
      have handed : w.perform c (.push record) =
        flush { w with buffer := w.buffer ++ [record] } c := by
        simp only [perform, push, if_pos full]
      rw [handed]
      exact ⟨full, flushed _⟩
    · left
      exact ⟨full, by simp only [perform, push, if_neg full]⟩
  | finish =>
    simp only [WriterCall.HandsOver, WriterCall.record?, Option.toList_none, List.append_nil]
    by_cases empty : w.buffer = []
    · left
      have nothing : w.perform c .finish = (.ok none, w, c) := by simp [perform, finish, empty]
      exact ⟨fun left_over => left_over empty, nothing⟩
    · right
      have handed : w.perform c .finish = flush { w with buffer := w.buffer } c := by
        simp [perform, finish, empty]
      rw [handed]
      exact ⟨empty, flushed _⟩

private theorem sizes_of_handsOver {w : BatchWriter} {call : WriterCall}
    (room : w.buffer.length < w.batchSize)
    (handed : call.HandsOver w.batchSize (w.buffer ++ call.record?.toList)) :
    w.buffer ++ call.record?.toList ≠ [] ∧
      (call ≠ .finish → (w.buffer ++ call.record?.toList).length = w.batchSize) ∧
      (call = .finish → (w.buffer ++ call.record?.toList).length < w.batchSize) := by
  cases call with
  | push record =>
    simp only [WriterCall.HandsOver, WriterCall.record?, Option.toList_some, List.length_append,
      List.length_singleton] at handed ⊢
    exact ⟨by simp, fun _ => by omega, nofun⟩
  | finish => exact ⟨handed, fun other => absurd rfl other,
    fun _ => by simpa [WriterCall.record?] using room⟩

end Calls

section Accounts

variable {σ α : Type} [FullTextCollection σ]

/-- How a writer of batches of some size stands when it has been given some records for a collection
that held some rows. -/
structure Accounts (holds : σ → List α) (view : Record → α) (old : List α) (batchSize : Nat)
    (given : List Record)
    (w : BatchWriter) (r : Recorded σ) : Prop where
  size : w.batchSize = batchSize
  records : r.attempts.flatMap (·.records) ++ w.buffer = given
  stored : holds r.collection = old ++ (committed r.attempts).map view
  room : w.buffer.length < batchSize
  inserted : w.inserted = (committed r.attempts).length
  batches : w.batches = (r.attempts.filter (·.result.isOk)).length

variable {holds : σ → List α} {view : Record → α} {old : List α} {batchSize : Nat}
    {given : List Record}
  {w : BatchWriter} {r : Recorded σ}

private theorem of_insertBatch {r r' : Recorded σ} {records : List Record}
    {result : Except StoreError Unit}
    (answered : FullTextCollection.insertBatch r records = (result, r')) :
    FullTextCollection.insertBatch r.collection records = (result, r'.collection) ∧
      r'.attempts = r.attempts ++ [⟨records, result⟩] := by
  have noted := attempts_insertBatch r records
  have same := alike_collection.insertBatch r records
  rw [answered] at noted same
  rw [same] at noted
  exact ⟨same, noted⟩

theorem Accounts.perform (whole : AllOrNothing holds view)
    (accounts : Accounts holds view old batchSize given w r) (call : WriterCall) :
    Accounts holds view old batchSize (given ++ call.record?.toList) (w.perform r call).2.1
      (w.perform r call).2.2 := by
  obtain ⟨rfl, records, stored, room, inserted, batches⟩ := accounts
  have positive : 0 < w.batchSize := Nat.lt_of_le_of_lt (Nat.zero_le _) room
  rcases w.perform_cases r call with ⟨below, done⟩ | ⟨-, r', ⟨answered, done⟩ | ⟨e, answered, done⟩⟩
  · rw [done]
    refine ⟨rfl, by simp [← records], stored, ?_, inserted, batches⟩
    cases call with
    | push record => exact Nat.lt_of_not_le below
    | finish => simpa [WriterCall.record?] using room
  · obtain ⟨taken, attempts⟩ := of_insertBatch answered
    have grown := whole.taken r.collection _ (congrArg Prod.fst taken)
    rw [taken] at grown
    rw [done]
    refine ⟨rfl, ?_, ?_, positive, ?_, ?_⟩
    · simp [attempts, ← records]
    · simp [grown, stored, attempts, committed, Except.isOk, Except.toBool]
    · simp [attempts, inserted, committed, Except.isOk, Except.toBool]
    · simp [attempts, batches, Except.isOk, Except.toBool]
  · obtain ⟨refused, attempts⟩ := of_insertBatch answered
    have kept := whole.refused r.collection _ e (congrArg Prod.fst refused)
    rw [refused] at kept
    rw [done]
    refine ⟨rfl, ?_, ?_, positive, ?_, ?_⟩
    · simp [attempts, ← records]
    · simp [kept, stored, attempts, committed, Except.isOk, Except.toBool]
    · simp [attempts, inserted, committed, Except.isOk, Except.toBool]
    · simp [attempts, batches, Except.isOk, Except.toBool]

/-- After any calls the accounts are in order. -/
theorem Accounts.performAll (whole : AllOrNothing holds view)
    (accounts : Accounts holds view old batchSize given w r) (calls : List WriterCall) :
    Accounts holds view old batchSize (given ++ calls.filterMap WriterCall.record?)
    (w.performAll r calls).1
      (w.performAll r calls).2 := by
  induction calls generalizing given w r with
  | nil => simpa [BatchWriter.performAll] using accounts
  | cons call calls ih =>
    have next := ih (accounts.perform whole call)
    rw [performAll_cons, List.filterMap_cons]
    cases call <;> simpa [WriterCall.record?] using next

end Accounts

section Alike

variable {σ : Type} [FullTextCollection σ]

private theorem perform_recorded (w : BatchWriter) (r : Recorded σ) (call : WriterCall) :
    w.perform r.collection call = Prod.map id (Prod.map id Recorded.collection)
    (w.perform r call) := by
  cases call with
  | push record => exact alike_collection.map_push w r record
  | finish => exact alike_collection.map_finish w r

private theorem performAll_recorded (w : BatchWriter) (r : Recorded σ) (calls : List WriterCall) :
    w.performAll r.collection calls = Prod.map id Recorded.collection (w.performAll r calls) := by
  induction calls generalizing w r with
  | nil => rfl
  | cons call calls ih =>
    rw [performAll_cons, performAll_cons, perform_recorded]
    exact ih _ _

end Alike

variable {σ α : Type} [FullTextCollection σ] {holds : σ → List α} {view : Record → α}

/-- The accounts of a writer, after any calls for a collection that takes batches whole or not at
all: the batches handed over so far and the records held back are the records given, in order; the
collection has gained the batches that were taken; fewer records are held back than make a batch;
and the counters count what was taken. The next call hands over at most one batch, which is never
empty, full if a record filled it and smaller if the writer was told to finish; it answers with the
size of the batch if that is taken and with the reason if it is refused, and a refused batch is
given up without being counted. -/
theorem accounts_of_calls (whole : AllOrNothing holds view) {batchSize : Nat} {w : BatchWriter}
    (started : start batchSize = .ok w) (c : σ) (calls : List WriterCall) :
    let before := w.performAll (Recorded.start c) calls
    let attempts := before.2.attempts
    w.performAll c calls = (before.1, before.2.collection) ∧
    attempts.flatMap (·.records) ++ before.1.buffer = calls.filterMap WriterCall.record? ∧
    holds before.2.collection = holds c ++ (committed attempts).map view ∧
    before.1.pending < batchSize ∧
    before.1.inserted = (committed attempts).length ∧
    before.1.batches = (attempts.filter (·.result.isOk)).length ∧
    ∀ call,
      let done := before.1.perform before.2 call
      before.1.perform before.2.collection call = (done.1, done.2.1, done.2.2.collection) ∧
      ∃ attempt : Option Attempt, done.2.2.attempts = attempts ++ attempt.toList ∧
        (∀ a ∈ attempt, a.records ≠ [] ∧ (call ≠ .finish → a.records.length = batchSize) ∧
          (call = .finish → a.records.length < batchSize)) ∧
        (∀ n, done.1 = .ok (some n) ↔ ∃ a ∈ attempt, a.result = .ok () ∧ a.records.length = n) ∧
        (∀ e, done.1 = .error e ↔ ∃ a ∈ attempt, ∃ source,
          a.result = .error source ∧ e = .writeFailed source) ∧
        ∀ e, done.1 = .error e →
          done.2.1.pending = 0 ∧ done.2.1.inserted = before.1.inserted ∧
            done.2.1.batches = before.1.batches := by
  obtain ⟨positive, -, rfl⟩ := start_ok started
  have fresh : Accounts holds view (holds c) batchSize [] ⟨batchSize, [], 0,
    0⟩ (Recorded.start c) := by
    refine ⟨rfl, ?_, ?_, positive, ?_, ?_⟩ <;> simp [Recorded.attempts, Recorded.start, committed]
  intro before attempts
  have accounts : Accounts holds view (holds c) batchSize (calls.filterMap WriterCall.record?)
    before.1 before.2 := by
    simpa using fresh.performAll whole calls
  refine ⟨performAll_recorded _ (Recorded.start c) calls, accounts.records,
    accounts.stored, accounts.room, accounts.inserted, accounts.batches, fun call => ?_⟩
  intro done
  refine ⟨perform_recorded before.1 before.2 call, ?_⟩
  have room : before.1.buffer.length < before.1.batchSize := by
    rw [accounts.size]
    exact accounts.room
  rcases before.1.perform_cases before.2 call with ⟨-, nothing⟩ | ⟨handed, r,
    ⟨answered, taken⟩ | ⟨e, answered, refused⟩⟩
  · refine ⟨none, ?_⟩
    simp [done, nothing, attempts]
  · refine ⟨some ⟨before.1.buffer ++ call.record?.toList, .ok ()⟩, ?_, ?_, ?_, ?_, ?_⟩
    · simp [done, taken, attempts, (of_insertBatch answered).2]
    · rintro _ ⟨⟩
      exact accounts.size ▸ sizes_of_handsOver room handed
    · simp [done, taken]
    · simp [done, taken]
    · simp [done, taken]
  · refine ⟨some ⟨before.1.buffer ++ call.record?.toList, .error e⟩, ?_, ?_, ?_, ?_, ?_⟩
    · simp [done, refused, attempts, (of_insertBatch answered).2]
    · rintro _ ⟨⟩
      exact accounts.size ▸ sizes_of_handsOver room handed
    · simp [done, refused]
    · simp [done, refused, eq_comm]
    · simp [done, refused, pending]

/-- Batches of two, of which the second is refused: it is given up, and the calls go on after it. -/
theorem accounts_of_refused_second_batch :
    let collection := MemoryCollection.refusing [2] []
    let r (title : String) : Record := { title }
    let calls : List WriterCall :=
      [.push (r "a"), .push (r "b"), .push (r "c"), .finish, .finish, .push (r "d")]
    AllOrNothing MemoryCollection.records id ∧ ∃ w, start 2 = .ok w ∧
      (w.performAll collection calls).1.buffer = [r "d"] ∧
        (w.performAll collection calls).1.inserted = 2 ∧
      (w.performAll collection calls).2.records = [r "a", r "b"] := by
  intro collection r calls
  have whole := MemoryCollection.allOrNothing
  have started : start 2 = .ok ⟨2, [], 0, 0⟩ := start_of_fits (by decide) (by decide)
  obtain ⟨plain, records, stored, -, inserted, -⟩ :=
    accounts_of_calls whole started collection calls
  refine ⟨whole, _, started, ?_⟩
  rw [plain, inserted, stored]
  exact ⟨by decide, by decide, by decide⟩

end BatchWriter

end TextArchive.Ingest
