import TextArchive.Index.RankExpression
import TextArchive.Index.Score
import TextArchive.Proofs.Number.Logarithm
import TextArchive.Weights

/-!
Scores are numbers: with the standard weights, a document that has terms and in which every phrase
is found has a score.
-/

set_option autoImplicit false
set_option relaxedAutoImplicit false

namespace TextArchive.Index

open TextArchive.Number
open TextArchive.Number.Binary64 (IsPositive IsUnsigned Spans)

/-- Weights that are whole numbers from one to ten. -/
def Moderate (weights : List Float) : Prop :=
  ∀ column : Nat, ∃ n, 1 ≤ n ∧ n ≤ 10 ∧ (weights[column]?).getD 1.0 = Float.ofNat n

theorem moderate_nil : Moderate [] :=
  fun _ => ⟨1, Nat.le_refl _, by decide, rfl⟩

theorem moderate_of_whole {ns : List Nat} (small : ∀ n ∈ ns, 1 ≤ n ∧ n ≤ 10) :
    Moderate (ns.map Float.ofNat) := by
  intro column
  rw [List.getElem?_map]
  cases stated : ns[column]? with
  | none => exact moderate_nil column
  | some n =>
    obtain ⟨least, most⟩ := small n (List.mem_of_getElem? stated)
    exact ⟨n, least, most, rfl⟩

theorem moderate_standard : Moderate (RankExpression.weights Weights.standard.expression) := by
  have stated : RankExpression.weights Weights.standard.expression = [10, 5, 8,
    2].map Float.ofNat := by decide +kernel
  rw [stated]
  exact moderate_of_whole (by decide)

namespace Score

theorem isPositive_rarity (documents holding : Nat) : IsPositive (rarity documents holding) := by
  simp only [rarity]
  split
  · exact ⟨_, _, _, rfl⟩
  · rename_i above
    obtain ⟨negative, magnitude, finite, value⟩ :=
      Logarithm.exists_ln
        ((Float.ofNat documents - Float.ofNat holding + 0.5) / (Float.ofNat holding + 0.5))
    rw [value] at above ⊢
    exact Binary64.isPositive_of_not_le finite above

private theorem frequency_eq {weights : List Float} (moderate : Moderate weights)
    (positions : List Position) (few : 10 * positions.length < 2 ^ 53) :
    ∃ n, positions.length ≤ n ∧ n ≤ 10 * positions.length ∧
    frequency weights positions = Float.ofNat n := by
  have summed : ∀ (positions : List Position) (start : Nat),
    start + 10 * positions.length < 2 ^ 53 →
      ∃ n, positions.length ≤ n ∧ n ≤ 10 * positions.length ∧
        positions.foldl (fun sum p => sum + (weights[p.column]?).getD 1.0) (Float.ofNat start) =
          Float.ofNat (start + n) := by
    intro positions
    induction positions with
    | nil => exact fun start _ => ⟨0, Nat.le_refl _, Nat.le_refl _, rfl⟩
    | cons p positions ih =>
      intro start few
      rw [List.length_cons] at few ⊢
      obtain ⟨weight, some_weight, most, value⟩ := moderate p.column
      obtain ⟨n, least, bounded, rest⟩ := ih (start + weight) (by omega)
      refine ⟨weight + n, by omega, by omega, ?_⟩
      rw [List.foldl_cons, value, Binary64.ofNat_add (by omega), rest, Nat.add_assoc]
  obtain ⟨n, least, most, sum⟩ := summed positions 0 (by omega)
  rw [Nat.zero_add] at sum
  exact ⟨n, least, most, sum⟩

section Score

variable {s : Statistics} {size : Nat}

private theorem isUnsigned_relativeLength (some_document : 0 < s.documents)
    (documents : s.documents < 2 ^ 63)
    (some_term : 0 < size) (bounded : size < 2 ^ 40) : IsUnsigned (relativeLength s size) := by
  have part : Spans (-53) (-53) 0.75 := ⟨_, _, _, rfl, by decide, by decide, by decide⟩
  have length := part.mul (Binary64.spans_ofNat some_term bounded (by decide)) (by decide)
    (by decide)
  have count := (Binary64.spans_ofNat some_document documents (by decide)).isPositive
  exact length.isPositive.div ((Binary64.isUnsigned_ofNat s.terms).div count)

private theorem isUnsigned_part {rarity relativeLength : Float} {n : Nat} (rare : IsPositive rarity)
    (length : IsUnsigned relativeLength) (positive : 0 < n) (bounded : n < 2 ^ 53) :
    IsUnsigned (part rarity (Float.ofNat n) relativeLength) := by
  have frequent := Binary64.spans_ofNat positive bounded (by decide)
  have raised : Spans (-51) (-51) 2.2 := ⟨_, _, _, rfl, by decide, by decide, by decide⟩
  have damping : IsPositive 1.2 := ⟨_, _, _, rfl⟩
  have quarter : IsUnsigned 0.25 := rfl
  have divisor := frequent.isPositive.isUnsigned.add (damping.mul (quarter.add length))
  have quotient := (frequent.mul raised (by decide) (by decide)).isPositive.div divisor
  exact rare.mul quotient

/-- A score is a number if the document has terms and every phrase is found in it. -/
theorem isNaN_score {weights : List Float} (moderate : Moderate weights)
    (some_document : 0 < s.documents) (documents : s.documents < 2 ^ 63) (some_term : 0 < size)
    (bounded : size < 2 ^ 40) {positions : List (List Position)}
    (found : ∀ ps ∈ positions, ps ≠ [] ∧ ps.length ≤ size) :
    Binary64.isNaN (score weights s size positions) = false := by
  have length := isUnsigned_relativeLength some_document documents some_term bounded
  have summed : ∀ (pairs : List (Nat × List Position)) (start : Float), IsUnsigned start →
      (∀ p ∈ pairs, p.2 ∈ positions) →
      IsUnsigned (pairs.foldl (fun sum p =>
        sum + part (rarity s.documents p.1) (frequency weights p.2)
          (relativeLength s size)) start) := by
    intro pairs
    induction pairs with
    | nil => exact fun start unsigned _ => unsigned
    | cons p pairs ih =>
      intro start unsigned inside
      obtain ⟨some_place, places⟩ := found _ (inside p List.mem_cons_self)
      obtain ⟨n, least, most, value⟩ := frequency_eq moderate p.2 (by omega)
      have some_length := List.length_pos_iff.mpr some_place
      have next := isUnsigned_part (isPositive_rarity s.documents p.1) length (n := n)
        (by omega) (by omega)
      rw [List.foldl_cons, value]
      exact ih _ (unsigned.add next) fun q member => inside q (List.mem_cons_of_mem _ member)
  have total := summed (s.holding.zip positions) 0.0 rfl fun p member => (List.of_mem_zip member).2
  exact Binary64.isNaN_of_sign? (Binary64.isSome_sign?_negative total)

end Score

end Score

end TextArchive.Index
