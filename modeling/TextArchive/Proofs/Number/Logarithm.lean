import TextArchive.Number.Logarithm
import TextArchive.Proofs.Number.Arithmetic

/-!
Doubles that are made of bits, and how great they can be: a quotient of moderate size is finite, and
so is every logarithm.
-/

set_option autoImplicit false
set_option relaxedAutoImplicit false

namespace TextArchive.Number

open Float.Model (Format UnpackedFloat)
open Float.Model.Format (binary64)
open Float.Model.UnpackedFloat

namespace Binary64

section Bits

variable (b : BitVec 64)

theorem toNat_unpackExponent : (@unpackExponent binary64 b).toNat = b.toNat / 2 ^ 52 % 2 ^ 11 := by
  simp [unpackExponent, BitVec.extractLsb, Nat.shiftRight_eq_div_pow]

theorem toNat_unpackMantissa : (@unpackMantissa binary64 b).toNat = b.toNat % 2 ^ 52 := by
  simp [unpackMantissa, BitVec.extractLsb, Nat.shiftRight_eq_div_pow]

theorem toNat_unpackSign : (@unpackSign binary64 b).toNat = b.toNat / 2 ^ 63 % 2 := by
  simp [unpackSign, BitVec.extractLsb, Nat.shiftRight_eq_div_pow]

theorem isNaN_of_sign? {x : Float} (number : (sign? (unpacked x)).isSome = true) :
    isNaN x = false := by
  refine Bool.eq_false_iff.mpr fun undefined => ?_
  have above : infinityBits < x.toBits.toBitVec.toNat % signBit := by simpa [isNaN] using undefined
  have field : @unpackExponent binary64 x.toBits.toBitVec = -1#11 := by
    refine BitVec.eq_of_toNat_eq ?_
    rw [toNat_unpackExponent, show (-1#11).toNat = 2047 from rfl]
    unfold infinityBits signBit at above
    omega
  have fraction : @unpackMantissa binary64 x.toBits.toBitVec ≠ 0#52 := by
    intro zero
    have value := congrArg BitVec.toNat zero
    rw [toNat_unpackMantissa, show (0#52).toNat = 0 from rfl] at value
    unfold infinityBits signBit at above
    omega
  have parts : unpacked x = .notANumber := by
    show unpack binary64 x.toBits.toBitVec = _
    simp only [unpack]
    rw [if_pos field, if_neg fraction]
  rw [parts] at number
  cases number

private theorem unpack_of_bits {negative : Bool} {magnitude : Nat}
    (finite : magnitude < infinityBits)
    (bits : b.toNat = (if negative then signBit else 0) + magnitude) :
    let s : Sign := if negative then .negative else .positive
    unpack binary64 b = .zero s ∨
      ∃ m e positive, unpack binary64 b = .finite s m e positive ∧ e < 972 := by
  intro s
  have field : (@unpackExponent binary64 b).toNat < 2047 := by
    rw [toNat_unpackExponent, bits]
    unfold infinityBits at finite
    unfold signBit
    split <;> omega
  have filled : @unpackExponent binary64 b ≠ -1#11 := by
    intro same
    rw [same] at field
    exact absurd field (by decide)
  have sign : Sign.ofBitVec (@unpackSign binary64 b) = s := by
    have stored : @unpackSign binary64 b = s.toBitVec := by
      refine BitVec.eq_of_toNat_eq ?_
      rw [toNat_unpackSign, bits]
      unfold infinityBits at finite
      cases negative
      · show (0 + magnitude) / 2 ^ 63 % 2 = 0
        omega
      · show (signBit + magnitude) / 2 ^ 63 % 2 = 1
        unfold signBit
        omega
    rw [stored, Sign.ofBitVec_toBitVec]
  have bias : (binary64.exponentBias : Int) = 1023 := rfl
  simp only [unpack]
  rw [if_neg filled, sign]
  split
  · rename_i subnormal
    split
    · exact .inl rfl
    · rename_i digits
      have positive : 0 < (@unpackMantissa binary64 b).toNat :=
        Nat.pos_of_ne_zero fun zero => digits (BitVec.eq_of_toNat_eq zero)
      refine .inr ⟨_, _, positive, rfl, ?_⟩
      rw [subnormal, bias]
      decide
  · have positive : 0 < (1#1 ++ @unpackMantissa binary64 b).toNat :=
      Nat.lt_of_lt_of_eq (Nat.lt_add_right _ (by decide)) (toNat_leading _).symm
    refine .inr ⟨_, _, positive, rfl, ?_⟩
    rw [bias]
    generalize (@unpackExponent binary64 b).toNat = place at field ⊢
    omega

end Bits

private theorem unpacked_ofSignAndBits (negative : Bool) {magnitude : Nat}
    (finite : magnitude < infinityBits) :
    let s : Sign := if negative then .negative else .positive
    unpacked (ofSignAndBits negative magnitude) = .zero s ∨
      ∃ m e positive, unpacked (ofSignAndBits negative magnitude) = .finite s m e positive := by
  intro s
  let bits := (if negative then signBit else 0) + magnitude
  have size : (UInt64.ofNat bits).toBitVec.toNat = bits := by
    refine Nat.mod_eq_of_lt ?_
    unfold infinityBits at finite
    unfold bits signBit
    split <;> omega
  show unpack binary64
    (pack binary64 (unpack binary64 (UInt64.ofNat bits).toBitVec)) = _ ∨ ∃ m e positive,
    unpack binary64 (pack binary64 (unpack binary64 (UInt64.ofNat bits).toBitVec)) = _
  rcases unpack_of_bits _ finite size with zero | ⟨m, e, positive, parts, bounded⟩
  · rw [zero]
    exact .inl unpack_packedZero
  · rw [parts]
    have packed := unpack_pack_finite s m e positive
    rwa [if_neg (by omega)] at packed

private theorem le_iff {x y : Float} : x ≤ y ↔ UnpackedFloat.le (unpacked x) (unpacked y) = true :=
    by
  show decide (UnpackedFloat.le (unpacked x) (unpacked y) = true) = true ↔ _
  exact decide_eq_true_iff

theorem isPositive_of_not_le {negative : Bool} {magnitude : Nat} (finite : magnitude < infinityBits)
    (above : ¬ ofSignAndBits negative magnitude ≤ 0.0) :
    IsPositive (ofSignAndBits negative magnitude) := by
  have zero : unpacked 0.0 = .zero .positive := rfl
  have compared := mt le_iff.mpr above
  rw [zero] at compared
  have parts := unpacked_ofSignAndBits negative finite
  cases negative with
  | false =>
    rcases parts with parts | ⟨m, e, positive, parts⟩
    · rw [parts] at compared
      exact absurd rfl compared
    · exact ⟨m, e, positive, parts⟩
  | true =>
    rcases parts with parts | ⟨m, e, positive, parts⟩
    all_goals
      rw [parts] at compared
      exact absurd rfl compared

section Quotients

variable {num den : Nat}

private theorem inUnits_le {e : Int} (some_part : num ≠ 0) (some_divisor : den ≠ 0)
    (unit : (num.log2 : Int) - den.log2 - 53 ≤ e) : Rounding.inUnits num den e ≤ 2 ^ 54 := by
  have above : num < 2 ^ (num.log2 + 1) := ((Nat.log2_eq_iff some_part).mp rfl).2
  have below : 2 ^ den.log2 ≤ den := ((Nat.log2_eq_iff some_divisor).mp rfl).1
  have quotient : num * 2 ^ (-e).toNat < 2 ^ 54 * (den * 2 ^ e.toNat) := by
    calc
      num * 2 ^ (-e).toNat < 2 ^ (num.log2 + 1) * 2 ^ (-e).toNat :=
        Nat.mul_lt_mul_of_pos_right above (Nat.two_pow_pos _)
      _ = 2 ^ (num.log2 + 1 + (-e).toNat) := (Nat.pow_add ..).symm
      _ ≤ 2 ^ (54 + (den.log2 + e.toNat)) := Nat.pow_le_pow_right (by decide) (by omega)
      _ = 2 ^ 54 * (2 ^ den.log2 * 2 ^ e.toNat) := by rw [Nat.pow_add, Nat.pow_add]
      _ ≤ 2 ^ 54 * (den * 2 ^ e.toNat) := Nat.mul_le_mul_left _ (Nat.mul_le_mul_right _ below)
  have short := (Nat.div_lt_iff_lt_mul (Nat.mul_pos (Nat.pos_of_ne_zero some_divisor)
    (Nat.two_pow_pos _))).mpr
    quotient
  unfold Rounding.inUnits Rounding.nearest
  simp only
  split <;> omega

private theorem magnitudeBits_lt {k : Nat} (some_divisor : den ≠ 0) (small : num < 2 ^ k * den)
    (moderate : k ≤ 900) :
    magnitudeBits num den < infinityBits := by
  unfold magnitudeBits
  split
  · decide
  rename_i some_part
  have top : num.log2 < k + (den.log2 + 1) := by
    refine (Nat.log2_lt some_part).mpr (Nat.lt_trans small ?_)
    rw [Nat.pow_add]
    exact Nat.mul_lt_mul_of_pos_left ((Nat.log2_eq_iff some_divisor).mp rfl).2 (Nat.two_pow_pos _)
  have unit : (num.log2 : Int) - den.log2 - 53 ≤ Rounding.unitExponent 53 num den ∧
      Rounding.unitExponent 53 num den ≤ (num.log2 : Int) - den.log2 - 52 := by
    simp only [Rounding.unitExponent]
    split <;> omega
  have digits := inUnits_le some_part some_divisor
    (e := max (Rounding.unitExponent 53 num den) leastExponent)
    (by omega)
  have place : (max (Rounding.unitExponent 53 num den) leastExponent - leastExponent).toNat
    ≤ 1923 := by
    unfold leastExponent
    omega
  have power := Nat.mul_le_mul_right (2 ^ 52) place
  refine Nat.lt_of_le_of_lt (Nat.min_le_left _ _) ?_
  unfold infinityBits
  omega

end Quotients

private theorem partsOfBits_bounds {bits : Nat} {parts : Parts}
    (found : partsOfBits bits = some parts) :
    parts.significand < 2 ^ 53 ∧ -1074 ≤ parts.exponent ∧ parts.exponent ≤ 971 := by
  simp only [partsOfBits] at found
  split at found
  · cases found
  split at found
  · cases found
    unfold leastExponent
    simp only
    omega
  · cases found
    simp only
    omega

end Binary64

namespace Logarithm

private theorem one_pos : 0 < one := by decide

private theorem natAbs_ediv_le {x d : Int} {c : Nat} (positive : 0 < d)
    (bounded : x.natAbs ≤ c * d.natAbs) :
    (x / d).natAbs ≤ c := by
  have size : (d.natAbs : Int) = d := by omega
  have cast : ((c * d.natAbs : Nat) : Int) = c * d := by rw [Int.natCast_mul, size]
  have high : x / d ≤ c := Int.ediv_le_of_le_mul positive (by omega)
  have low : -(c : Int) ≤ x / d := Int.le_ediv_of_mul_le positive (by rw [Int.neg_mul]; omega)
  omega

private theorem natAbs_mul_div_one_le {a b : Int} (first : a.natAbs ≤ one.natAbs)
    (second : b.natAbs ≤ one.natAbs) :
    (a * b / one).natAbs ≤ one.natAbs := by
  refine natAbs_ediv_le one_pos ?_
  rw [Int.natAbs_mul]
  exact Nat.mul_le_mul first second

private theorem natAbs_oddPowerSum_le {square : Int} (bounded : square.natAbs ≤ one.natAbs)
    (n : Nat) {power : Int} (small : power.natAbs ≤ one.natAbs) (odd : Nat) :
    (oddPowerSum square n power odd).natAbs ≤ n * one.natAbs := by
  induction n generalizing power odd with
  | zero => simp [oddPowerSum]
  | succ n ih =>
    have first : (power / odd).natAbs ≤ one.natAbs :=
      Nat.le_trans (Int.natAbs_ediv_le_natAbs _ _) small
    have rest := ih (natAbs_mul_div_one_le small bounded) (odd + 2)
    have sum := Int.natAbs_add_le (power / odd)
      (oddPowerSum square n (power * square / one) (odd + 2))
    rw [oddPowerSum, Nat.succ_mul]
    omega

private theorem natAbs_ofQuotient_le (num : Nat) {den : Nat} (positive : 0 < den) :
    (ofQuotient num den).natAbs ≤ 128 * one.natAbs := by
  have ratio : (((num : Int) - den) * one / (num + den)).natAbs ≤ one.natAbs := by
    refine natAbs_ediv_le (by omega) ?_
    rw [Int.natAbs_mul, Nat.mul_comm]
    exact Nat.mul_le_mul_left _ (by omega)
  have sum := natAbs_oddPowerSum_le (natAbs_mul_div_one_le ratio ratio) 64 ratio 1
  simp only [ofQuotient]
  omega

private theorem natAbs_ofParts_le {m : Nat} {e : Int} (digits : m.log2 < 53) (low : -1074 ≤ e)
    (high : e ≤ 971) :
    (ofParts m e).natAbs < 2 ^ 20 * one.natAbs := by
  have powers : ∀ n : Int, n.natAbs ≤ 1100 → (n * ofTwo).natAbs ≤ 1100 * (128 * one.natAbs) := by
    intro n bounded
    rw [Int.natAbs_mul]
    exact Nat.mul_le_mul bounded (natAbs_ofQuotient_le 2 Nat.one_pos)
  have some_part : 0 < one.natAbs := by decide
  simp only [ofParts]
  split
  · have near := natAbs_ofQuotient_le m (Nat.two_pow_pos (m.log2 + 1))
    have far := powers (m.log2 + 1 + e) (by omega)
    have sum := Int.natAbs_add_le (ofQuotient m (2 ^ (m.log2 + 1))) ((m.log2 + 1 + e) * ofTwo)
    omega
  · have near := natAbs_ofQuotient_le m (Nat.two_pow_pos m.log2)
    have far := powers (m.log2 + e) (by omega)
    have sum := Int.natAbs_add_le (ofQuotient m (2 ^ m.log2)) ((m.log2 + e) * ofTwo)
    omega

theorem exists_ln (x : Float) :
    ∃ negative magnitude, magnitude < Binary64.infinityBits ∧
    ln x = Binary64.ofSignAndBits negative magnitude := by
  unfold ln
  split
  · rename_i m e found
    obtain ⟨digits, low, high⟩ := Binary64.partsOfBits_bounds found
    have short : m.log2 < 53 := by
      rcases Nat.eq_zero_or_pos m with rfl | positive
      · decide
      · exact (Nat.log2_lt (Nat.ne_of_gt positive)).mpr digits
    have moderate := natAbs_ofParts_le short low high
    rw [show one.natAbs = one.toNat by decide] at moderate
    exact ⟨_, _, Binary64.magnitudeBits_lt (by decide) moderate (by decide), rfl⟩
  · exact ⟨false, 0, by decide, rfl⟩

end Logarithm

end TextArchive.Number
