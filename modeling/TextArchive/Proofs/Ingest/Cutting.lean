import Mathlib.Data.List.Basic

/-!
Cutting a list into batches of a size, as it comes when a batch goes out as soon as it is full:
nothing is lost or moved, every batch but the last is full, and none is empty.
-/

set_option autoImplicit false
set_option relaxedAutoImplicit false

namespace TextArchive.Ingest

variable {α : Type}

/-- The batches of some elements when others are held back already; what is left below the size of a
batch comes last. -/
def cut (size : Nat) (held : List α) : List α → List (List α)
  | [] => if held.isEmpty then [] else [held]
  | x :: xs =>
    if size ≤ (held ++ [x]).length then (held ++ [x]) :: cut size [] xs
    else cut size (held ++ [x]) xs

theorem flatten_cut (size : Nat) (held xs : List α) : (cut size held xs).flatten = held ++ xs := by
  induction xs generalizing held with
  | nil => cases held <;> simp [cut]
  | cons x xs ih =>
    simp only [cut]
    split
    · rw [List.flatten_cons, ih, List.nil_append, List.append_assoc, List.singleton_append]
    · rw [ih, List.append_assoc, List.singleton_append]

theorem length_pos_of_mem_cut {size : Nat} {held xs batch : List α}
    (member : batch ∈ cut size held xs) :
    1 ≤ batch.length := by
  induction xs generalizing held with
  | nil =>
    cases held with
    | nil => simp [cut] at member
    | cons y held =>
      obtain rfl : batch = y :: held := by simpa [cut] using member
      simp
  | cons x xs ih =>
    simp only [cut] at member
    split at member
    · rcases List.mem_cons.mp member with rfl | rest
      · simp
      · exact ih rest
    · exact ih member

theorem length_le_of_mem_cut {size : Nat} {held xs batch : List α} (room : held.length < size)
    (member : batch ∈ cut size held xs) : batch.length ≤ size := by
  induction xs generalizing held with
  | nil =>
    cases held with
    | nil => simp [cut] at member
    | cons y held =>
      obtain rfl : batch = y :: held := by simpa [cut] using member
      exact Nat.le_of_lt room
  | cons x xs ih =>
    simp only [cut] at member
    split at member
    · rcases List.mem_cons.mp member with rfl | rest
      · simpa using Nat.succ_le_of_lt room
      · exact ih (by simp; omega) rest
    · rename_i below
      exact ih (by omega) member

private theorem length_of_cut_eq_append {size : Nat} {held xs : List α}
    {before after : List (List α)} {batch : List α} (room : held.length < size)
    (split_at : cut size held xs = before ++ batch :: after) (more : after ≠ []) :
    batch.length = size := by
  induction xs generalizing held before with
  | nil =>
    have few : (cut size held []).length ≤ 1 := by
      simp only [cut]
      split <;> simp
    rw [split_at] at few
    have : 0 < after.length := List.length_pos_iff.mpr more
    simp only [List.length_append, List.length_cons] at few
    omega
  | cons x xs ih =>
    simp only [cut] at split_at
    split at split_at
    · rename_i full
      cases before with
      | nil =>
        obtain ⟨rfl, -⟩ := List.cons.inj split_at
        simp only [List.length_append, List.length_singleton] at full ⊢
        omega
      | cons first before =>
        exact ih (by simp; omega) (List.cons.inj split_at).2
    · rename_i below
      exact ih (by omega) split_at

theorem length_of_mem_dropLast_cut {size : Nat} {xs batch : List α} (positive : 1 ≤ size)
    (member : batch ∈ (cut size [] xs).dropLast) : batch.length = size := by
  obtain ⟨before, after, equal⟩ := List.append_of_mem member
  have nonempty : cut size [] xs ≠ [] := by
    intro empty
    simp [empty] at member
  have whole := List.dropLast_append_getLast nonempty
  rw [equal, List.append_assoc, List.cons_append] at whole
  have room : ([] : List α).length < size := positive
  exact length_of_cut_eq_append room whole.symm (by simp)

theorem length_flatten_of_cut_eq_append {size : Nat} {xs : List α} {before after : List (List α)}
    {batch : List α} (positive : 1 ≤ size) (split_at : cut size [] xs = before ++ batch :: after) :
    before.flatten.length = before.length * size := by
  have full : ∀ b ∈ before, b.length = size := by
    intro b member
    obtain ⟨left, right, rfl⟩ := List.append_of_mem member
    have room : ([] : List α).length < size := positive
    have split_here : cut size [] xs = left ++ b :: (right ++ batch :: after) := by
      rw [split_at, List.append_assoc, List.cons_append]
    exact length_of_cut_eq_append room split_here (by simp)
  rw [List.length_flatten, List.map_congr_left full, List.map_const', List.sum_replicate_nat]

/-- The batches before another one hold the first elements, and it holds the next ones, as many as
fit. -/
theorem eq_take_of_cut_eq_append {size : Nat} {xs : List α} {before after : List (List α)}
    {batch : List α} (positive : 1 ≤ size) (split_at : cut size [] xs = before ++ batch :: after) :
    before.flatten = xs.take (before.length * size) ∧
    batch = (xs.drop (before.length * size)).take size := by
  have full := length_flatten_of_cut_eq_append positive split_at
  have whole : xs = before.flatten ++ (batch ++ after.flatten) := by
    rw [← List.nil_append xs, ← flatten_cut size [] xs, split_at,
      List.flatten_append, List.flatten_cons]
  have dropped : xs.drop (before.length * size) = batch ++ after.flatten := by
    rw [whole, ← full, List.drop_left]
  constructor
  · rw [whole, ← full, List.take_left]
  · have room : ([] : List α).length < size := positive
    rw [dropped]
    by_cases last : after = []
    · have fits : batch.length ≤ size := length_le_of_mem_cut room (by rw [split_at]; simp)
      rw [last, List.flatten_nil, List.append_nil, List.take_of_length_le fits]
    · rw [← length_of_cut_eq_append room split_at last, List.take_left]

theorem length_cut {size : Nat} (held xs : List α) (room : held.length < size) :
    (cut size held xs).length = (held.length + xs.length + size - 1) / size := by
  induction xs generalizing held with
  | nil =>
    cases held with
    | nil =>
      simp only [cut, List.isEmpty_nil, if_true, List.length_nil]
      exact (Nat.div_eq_of_lt (by omega)).symm
    | cons y held =>
      simp only [List.length_cons] at room
      have one : (held.length + 1 + 0 + size - 1) / size = 1 := by
        rw [Nat.div_eq_iff (by omega)]
        omega
      simp only [cut, List.isEmpty_cons, Bool.false_eq_true, if_false, List.length_cons,
        List.length_nil, one]
  | cons x xs ih =>
    simp only [cut]
    split
    · rename_i full
      have size_eq : held.length + 1 = size := by
        simp only [List.length_append, List.length_singleton] at full
        omega
      rw [List.length_cons, ih [] (by simp; omega), List.length_nil, List.length_cons]
      have shift : held.length + (xs.length + 1) + size - 1 = 0 + xs.length + size - 1 + size := by
        omega
      rw [shift, Nat.add_div_right _ (by omega)]
    · rename_i below
      rw [ih _ (by omega)]
      simp only [List.length_append, List.length_cons, List.length_nil]
      congr 1
      omega

end TextArchive.Ingest
