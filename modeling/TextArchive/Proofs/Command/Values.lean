import TextArchive.Command.Given
import TextArchive.Proofs.Number.Spelling
import TextArchive.Proofs.Search.Ranking

/-!
The values that texts on a command line stand for: counts, and doubles with commas between them. A
text is read as a value just if it spells this value.
-/

set_option autoImplicit false
set_option relaxedAutoImplicit false

namespace TextArchive.Command

open TextArchive.Number
open TextArchive.Text.Split (pieces)

/-- A text as a count: digits, perhaps after a plus, whose number fits into 64 bits. -/
def SpellsCount (text : String) (n : ℕ) : Prop :=
  n < 2 ^ 64 ∧ ∃ digits, (text.toList = digits ∨ text.toList = '+' :: digits) ∧ IsNumeral digits n

/-- A text as doubles, one at least, with commas between them. -/
def SpellsDoubles (text : String) (xs : List Float) : Prop :=
  xs ≠ [] ∧ ∃ parts, text.toList = [','].intercalate parts ∧ (∀ part ∈ parts, ',' ∉ part) ∧
    List.Forall₂ SpellsDouble parts xs

private theorem countAfter_eq_ok_iff {m n : ℕ} {cs : List Char} (below : m < countLimit) :
    countAfter m cs = .ok n ↔
    (∀ c ∈ cs, c.isDigit = true) ∧ m * 10 ^ cs.length + placeValue cs = n ∧ n < countLimit := by
  induction cs generalizing m with
  | nil =>
    simp only [countAfter, Except.ok.injEq, placeValue]
    constructor
    · rintro rfl
      exact ⟨by simp, by simp, below⟩
    · rintro ⟨-, value, -⟩
      simpa using value
  | cons c cs ih =>
    have value : m * 10 ^ (c :: cs).length + placeValue (c :: cs) =
        (10 * m + Literal.digitValue c) * 10 ^ cs.length + placeValue cs := by
      rw [placeValue, List.length_cons, pow_succ, Literal.digitValue]
      ring
    rw [value, countAfter, List.forall_mem_cons]
    split
    · rename_i digit
      simp only
      split
      · rename_i great
        simp only [reduceCtorEq, false_iff, not_and]
        rintro - rfl
        have places : 0 < 10 ^ cs.length := Nat.pow_pos (by decide)
        have grown := Nat.le_mul_of_pos_right (10 * m + Literal.digitValue c) places
        omega
      · rename_i within
        rw [ih (Nat.not_le.mp within)]
        simp [digit]
    · rename_i other
      simp [other]

theorem readCount_eq_ok_iff {text : String} {n : ℕ} :
    readCount text.toList = .ok n ↔ SpellsCount text n := by
  have digits : ∀ cs : List Char, cs ≠ [] →
    (countAfter 0 cs = .ok n ↔ n < 2 ^ 64 ∧ IsNumeral cs n) := by
    intro cs filled
    rw [countAfter_eq_ok_iff (by decide), Nat.zero_mul, Nat.zero_add]
    exact ⟨fun ⟨digital, value, below⟩ => ⟨below, filled, digital, value⟩,
      fun ⟨below, numeral⟩ => ⟨numeral.digits, numeral.value, below⟩⟩
  unfold SpellsCount
  generalize text.toList = cs
  unfold readCount
  split
  · simp only [reduceCtorEq, false_iff, not_and]
    rintro - ⟨digits, rfl | other, numeral⟩
    · exact numeral.filled rfl
    · cases other
  · simp only [reduceCtorEq, false_iff, not_and]
    rintro - ⟨digits, rfl | other, numeral⟩
    · cases numeral.digits '+' List.mem_cons_self
    · cases other
      exact numeral.filled rfl
  · rename_i cs filled
    rw [digits cs (fun none => filled none)]
    refine and_congr_right fun _ => ⟨fun numeral => ⟨cs, .inr rfl, numeral⟩, ?_⟩
    rintro ⟨digits, rfl | same, numeral⟩
    · cases numeral.digits '+' List.mem_cons_self
    · cases same
      exact numeral
  · rename_i filled _ plain
    rw [digits cs filled]
    refine and_congr_right fun _ => ⟨fun numeral => ⟨cs, .inl rfl, numeral⟩, ?_⟩
    rintro ⟨digits, rfl | same, numeral⟩
    · exact numeral
    · exact absurd same (plain digits)

theorem readDecimal_eq_ok_iff {cs : List Char} {x : Float} :
    readDecimal cs = .ok x ↔ SpellsDouble cs x := by
  rw [← Literal.parse?_eq_some_iff, readDecimal]
  split <;> rename_i read <;> simp [read]

private theorem isSeparator_of_mem_pieces {α : Type} {isSeparator : α → Bool} {s p : List α}
    (member : p ∈ pieces isSeparator s) :
    ∀ a ∈ p, isSeparator a = false := by
  induction s generalizing p with
  | nil =>
    rw [pieces, List.mem_singleton] at member
    simp [member]
  | cons a r ih =>
    unfold pieces at member
    split at member
    · rcases List.mem_cons.mp member with rfl | later
      · simp
      · exact ih later
    rename_i kept
    split at member
    · rename_i none
      exact absurd none (Text.Split.pieces_ne_nil _ r)
    · rename_i first rest start
      rw [start] at ih
      rcases List.mem_cons.mp member with rfl | later
      · exact List.forall_mem_cons.mpr ⟨by simpa using kept, ih List.mem_cons_self⟩
      · exact ih (List.mem_cons_of_mem _ later)

private theorem pieces_intercalate {α : Type} [DecidableEq α] {x : α} {parts : List (List α)}
    (filled : parts ≠ []) (apart : ∀ part ∈ parts, x ∉ part) : pieces (fun a => decide (a = x))
    ([x].intercalate parts) = parts := by
  induction parts with
  | nil => exact absurd rfl filled
  | cons part parts ih =>
    obtain ⟨first, later⟩ := List.forall_mem_cons.mp apart
    have plain : ∀ a ∈ part, decide (a = x) = false := fun a member => by
      simpa using fun same : a = x => first (same ▸ member)
    cases parts with
    | nil => simpa [List.intercalate] using Text.Split.pieces_of_no_separator plain
    | cons next parts =>
      have joined : [x].intercalate (part :: next :: parts) =
        part ++ x :: [x].intercalate (next :: parts) := by
        simp [List.intercalate, List.intersperse]
      rw [joined, Text.Split.pieces_append_separator (by simp),
        Text.Split.pieces_of_no_separator plain, ih (by simp) later]
      rfl

theorem readDecimals_eq_ok_iff {text : String} {xs : List Float} :
    (pieces (· = ',') text.toList).mapM readDecimal = .ok xs ↔ SpellsDoubles text xs := by
  simp only [mapM_ok_iff, readDecimal_eq_ok_iff]
  constructor
  · intro spelled
    refine ⟨?_, _, (Text.Split.intercalate_pieces ',' text.toList).symm,
      fun part member comma => ?_, spelled⟩
    · rintro rfl
      exact Text.Split.pieces_ne_nil _ _ (List.forall₂_nil_right_iff.mp spelled)
    · simpa using isSeparator_of_mem_pieces member ',' comma
  · rintro ⟨filled, parts, joined, apart, spelled⟩
    have some_part : parts ≠ [] := by
      rintro rfl
      exact filled (List.forall₂_nil_left_iff.mp spelled)
    rw [joined, pieces_intercalate some_part apart]
    exact spelled

end TextArchive.Command
