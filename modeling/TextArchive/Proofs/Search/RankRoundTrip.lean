import TextArchive.Proofs.Number.Literal
import TextArchive.Proofs.Number.Shortest
import TextArchive.Proofs.Search.RankExpression

/-!
Weights come back from their rank expression. The decimal that is written for a finite weight is
rounded to the double of this weight and to no other, the sign of zero included, and its text is
read as it. So the expression keeps the weights.
-/

set_option autoImplicit false
set_option relaxedAutoImplicit false

namespace TextArchive

open TextArchive.Number
open TextArchive.Index.RankExpression (arguments arguments_expression splitSign_text takeWhile_isDigit dropWhile_isDigit)
open TextArchive.Number.Binary64 (isFinite isNegative magnitude parts? signed Rounds RoundsTo)

namespace Number.PlainDecimal

def scaled (d : PlainDecimal) : Literal.Scaled :=
  ⟨d.negative, Literal.naturalValue (d.whole ++ d.fraction), -(d.fraction.length : ℤ)⟩

def rational (d : PlainDecimal) : ℚ :=
  signed d.negative d.scaled.size

section Read

variable (d : PlainDecimal)

private theorem isWord_eq_false {word : String} (plain : '.' ∉ word.toList) :
    Literal.isWord (d.whole ++ '.' :: d.fraction) word = false := by
  refine beq_eq_false_iff_ne.mpr fun same => plain ?_
  rw [← same]
  exact List.mem_map.mpr ⟨'.', by simp, by decide⟩

private theorem magnitude?_eq : Literal.magnitude? (d.whole ++ '.' :: d.fraction) =
    some (d.scaled.digits, d.scaled.exponent) := by
  have fraction := List.takeWhile_eq_self_iff.mpr d.isFraction.digits
  have none_left := List.dropWhile_eq_nil_iff.mpr d.isFraction.digits
  have filled : d.whole.isEmpty = false := List.isEmpty_eq_false_iff.mpr d.isWhole.filled
  simp only [Literal.magnitude?, takeWhile_isDigit, dropWhile_isDigit, fraction, none_left, filled,
    Literal.exponent?, scaled]
  simp

private theorem parse?_text : Literal.parse? d.text = some d.scaled.toFloat := by
  simp only [Literal.parse?, splitSign_text, magnitude?_eq]
  rw [isWord_eq_false d (by decide), isWord_eq_false d (by decide), isWord_eq_false d (by decide)]
  rfl

end Read

private theorem Spells.size_eq {d : PlainDecimal} {decimal : Shortest.Decimal}
    (spells : d.Spells decimal) :
    d.scaled.size = decimal.value := by
  obtain ⟨before, after, digits, place⟩ := spells
  have exponent : decimal.exponent = after + -(d.fraction.length : ℤ) := by omega
  rw [Literal.Scaled.size, Shortest.Decimal.value, scaled, digits,
    Literal.naturalValue_padded, exponent, zpow_add₀ (by norm_num), zpow_natCast]
  push_cast
  ring

end Number.PlainDecimal

theorem Number.Binary64.rounds_decimal {x : Float} {parts : Parts} (found : parts? x = some parts) :
    Rounds parts.decimal.value (magnitude x) := by
  obtain ⟨m, f, digits, short, full⟩ := exists_digits (magnitude x)
  have finite : isFinite x = true := Option.isSome_iff_exists.mpr ⟨parts, found⟩
  rw [parts?_eq digits short full finite, Option.some.injEq] at found
  rw [← found, digits, Parts.decimal]
  split
  · rename_i none_left
    obtain rfl : m = 0 := none_left
    obtain rfl : f = 0 := by omega
    have zero : Shortest.Decimal.value ⟨0, 0⟩ = 0 := by simp [Shortest.Decimal.value]
    rw [zero]
    exact rounds_zero_iff.mpr ⟨le_rfl, by simpa using numberOfBits_nonneg 1⟩
  · rename_i some_digit
    exact Shortest.rounds_shortest (Nat.pos_of_ne_zero some_digit) short full

namespace Weights

/-- The written form of a finite double is a plain decimal. The double is the only one that the
decimal is rounded to, and it is what the text is read as. -/
theorem render_reads_back {x : Float} (finite : isFinite x = true) :
    ∃ d : PlainDecimal, plainStyle.render x = d.text ∧
    (∀ y, RoundsTo d.negative d.rational y ↔ y = x) ∧
      Literal.parse? d.text = some x := by
  obtain ⟨d, sign, spells, text⟩ := exists_render finite
  obtain ⟨parts, found⟩ := Option.isSome_iff_exists.mp finite
  have rounds : Rounds d.scaled.size (magnitude x) := by
    rw [(spells parts found).size_eq]
    exact Binary64.rounds_decimal found
  refine ⟨d, text, fun y => Binary64.roundsTo_iff d.scaled.size_nonneg finite sign.symm rounds, ?_⟩
  have read := Literal.Scaled.toFloat_eq rounds
  rw [min_eq_left (Binary64.isFinite_iff.mp finite).le] at read
  rw [d.parse?_text, read, show d.scaled.negative = isNegative x from sign,
    Binary64.ofSignAndBits_magnitude finite]

private theorem read_expression {w : Weights} (finite : w.allFinite = true) :
    (arguments w.expression).map Literal.parse? = w.toList.map some := by
  rw [arguments_expression finite, List.map_map]
  refine List.map_congr_left fun x member => ?_
  obtain ⟨d, text, -, read⟩ := render_reads_back (List.all_eq_true.mp finite x member)
  rw [Function.comp_apply, text, read]

private theorem toList_injective : Function.Injective toList := by
  rintro ⟨⟩ ⟨⟩ same
  simpa [toList] using same

/-- The rank expression of finite weights has one argument for each of them, in order: a decimal
that rounds to the double of the weight and to no other, and that is read as this double. Doubles
are the same here just if all their bits are, and so no other weights have the same expression. -/
theorem expression_reads_back {w : Weights} (finite : w.allFinite = true) :
    List.Forall₂ (fun argument x => ∃ d : PlainDecimal, argument = d.text ∧
      ∀ y, RoundsTo d.negative d.rational y ↔ y = x) (arguments w.expression) w.toList ∧
    (arguments w.expression).map Literal.parse? = w.toList.map some ∧
    ∀ v : Weights, v.allFinite = true → v.expression = w.expression → v = w := by
  refine ⟨?_, read_expression finite, fun v finite' same => ?_⟩
  · rw [arguments_expression finite, List.forall₂_map_left_iff, List.forall₂_same]
    intro x member
    obtain ⟨d, text, rounded, -⟩ := render_reads_back (List.all_eq_true.mp finite x member)
    exact ⟨d, text, rounded⟩
  · have read := read_expression finite'
    rw [same, read_expression finite] at read
    exact (toList_injective (List.map_injective_iff.mpr (Option.some_injective _) read)).symm

/-- A fraction, a zero with a minus, the least double and the largest. -/
theorem expression_reads_back_of_extremes :
    let w : Weights := ⟨1.25, -0.0, Float.ofBits 1, Float.ofBits 0x7FEFFFFFFFFFFFFF⟩
    w.allFinite = true ∧ (arguments w.expression).map Literal.parse? =
      [some 1.25, some (-0.0), some (Float.ofBits 1), some (Float.ofBits 0x7FEFFFFFFFFFFFFF)] := by
  intro w
  have finite : w.allFinite = true := by decide +kernel
  exact ⟨finite, (expression_reads_back finite).2.1⟩

end Weights

end TextArchive
