import TextArchive.Ingest.Collection

/-!
Writing records in batches: they are held back until a batch is full, and a batch is handed over
whole. A batch that is refused is given up.
-/

set_option autoImplicit false
set_option relaxedAutoImplicit false

namespace TextArchive.Ingest

/-- A writer: the size of its batches, the records held back, and how many records and batches have
been committed. -/
structure BatchWriter where
  batchSize : Nat
  buffer : List Record
  inserted : Nat
  batches : Nat
deriving DecidableEq, Repr

/-- What a call gives: the size of the batch that it has committed, if any, or why that batch was
refused. -/
abbrev Committed := Except IngestError (Option Nat)

namespace BatchWriter

/-- The size of a record without its texts, in bytes. -/
def recordSize : Nat := 112

/-- The greatest size of a batch for which room can be asked for. -/
def greatestBatch : Nat := (2 ^ 63 - 1) / recordSize

/-- A writer that has been given nothing yet. Batches have to hold something, and room for one is
made beforehand. -/
def start (batchSize : Nat) : Except IngestError BatchWriter :=
  if batchSize = 0 then .error (.invalidArgument .zeroBatchSize)
  else if greatestBatch < batchSize then .error .capacityOverflow
  else .ok ⟨batchSize, [], 0, 0⟩

theorem start_of_fits {batchSize : Nat} (positive : 1 ≤ batchSize)
    (fits : batchSize ≤ greatestBatch) :
    start batchSize = .ok ⟨batchSize, [], 0, 0⟩ := by
  simp only [start, if_neg (Nat.ne_of_gt positive), if_neg (Nat.not_lt.mpr fits)]

theorem start_ok {batchSize : Nat} {w : BatchWriter} (started : start batchSize = .ok w) :
    1 ≤ batchSize ∧ batchSize ≤ greatestBatch ∧ w = ⟨batchSize, [], 0, 0⟩ := by
  unfold start at started
  split at started
  · cases started
  · rename_i filled
    split at started
    · cases started
    · rename_i fits
      exact ⟨Nat.pos_of_ne_zero filled, Nat.not_lt.mp fits, (Except.ok.inj started).symm⟩

def pending (w : BatchWriter) : Nat := w.buffer.length

variable {σ : Type} [FullTextCollection σ]

def flush (w : BatchWriter) (collection : σ) : Committed × BatchWriter × σ :=
  let size := w.buffer.length
  let emptied := { w with buffer := [] }
  match FullTextCollection.insertBatch collection w.buffer with
  | (.ok (), collection) =>
    (.ok (some size), { emptied with inserted := w.inserted + size, batches := w.batches + 1 },
      collection)
  | (.error e, collection) => (.error (.writeFailed e), emptied, collection)

/-- Take a record, and hand over the batch if that fills it. -/
def push (w : BatchWriter) (collection : σ) (record : Record) : Committed × BatchWriter × σ :=
  let w := { w with buffer := w.buffer ++ [record] }
  if w.batchSize ≤ w.buffer.length then w.flush collection else (.ok none, w, collection)

def finish (w : BatchWriter) (collection : σ) : Committed × BatchWriter × σ :=
  if w.buffer.isEmpty then (.ok none, w, collection) else w.flush collection

end BatchWriter

end TextArchive.Ingest
