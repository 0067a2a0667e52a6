import Mathlib
import TextArchive.Number.Rounding

/-!
How doubles are taken apart, rounded and put together again. Rounding and packing keep the sign of a
number, and they keep a number that has all of its 53 binary digits and an exponent in reach.
-/

set_option autoImplicit false
set_option relaxedAutoImplicit false

namespace TextArchive.Number.Binary64

open Float.Model (Format UnpackedFloat totalExponent)
open Float.Model.Format (binary64)
open Float.Model.UnpackedFloat

/-- The sign of what stands for a number. -/
def sign? : UnpackedFloat → Option Sign
  | .notANumber => none
  | .infinity s => some s
  | .zero s => some s
  | .finite s _ _ _ => some s

section Packing

variable (s : Sign) (field : BitVec 11) (fraction : BitVec 52)

theorem unpack_packedInfinity : unpack binary64 (packedInfinity binary64 s) = .infinity s := by
  cases s <;> rfl

theorem unpack_subnormal (positive : 0 < fraction.toNat) :
    unpack binary64 (packComponents binary64 s 0#11 fraction) =
    .finite s fraction.toNat (-1074) positive := by
  have digits : fraction ≠ 0#52 := by
    rintro rfl
    exact Nat.lt_irrefl 0 positive
  simp only [unpack, unpackExponent_packComponents, unpackMantissa_packComponents,
    unpackSign_packComponents, Sign.ofBitVec_toBitVec]
  rw [if_neg (by decide), if_true, dif_neg digits]
  rfl

theorem toNat_leading : (1#1 ++ fraction).toNat = 2 ^ 52 + fraction.toNat := by
  rw [BitVec.toNat_append, ← Nat.shiftLeft_add_eq_or_of_lt fraction.isLt]
  simp [Nat.shiftLeft_eq]

private theorem unpack_normal (filled : field ≠ -1#11) (power : field ≠ 0#11)
    (positive : 0 < 2 ^ 52 + fraction.toNat) :
    unpack binary64 (packComponents binary64 s field fraction) =
      .finite s (2 ^ 52 + fraction.toNat) ((field.toNat : Int) - 1075) positive := by
  simp only [unpack, unpackExponent_packComponents, unpackMantissa_packComponents,
    unpackSign_packComponents, Sign.ofBitVec_toBitVec]
  rw [if_neg filled, if_neg power]
  simp only [UnpackedFloat.finite.injEq, true_and]
  exact ⟨toNat_leading fraction, rfl⟩

private theorem unpack_packComponents (filled : field ≠ -1#11) :
    unpack binary64 (packComponents binary64 s field fraction) = .zero s ∨
      ∃ m e positive, unpack binary64 (packComponents binary64 s field fraction) =
      .finite s m e positive := by
  by_cases power : field = 0#11
  · subst power
    by_cases digits : 0 < fraction.toNat
    · exact .inr ⟨_, _, _, unpack_subnormal s fraction digits⟩
    · have none_left : fraction = 0#52 := BitVec.eq_of_toNat_eq (by simpa using digits)
      subst none_left
      exact .inl unpack_packedZero
  · exact .inr ⟨_, _, _, unpack_normal s field fraction filled power (by omega)⟩

variable (m : Nat) (e : Int) (positive : 0 < m)

theorem pack_finite : pack binary64 (.finite s m e positive) =
    if 972 ≤ e then packedInfinity binary64 s
    else if m.log2 =
    52 then packComponents binary64 s (BitVec.ofNat 11 (e + 1075).toNat) (BitVec.ofNat 52 m)
    else packComponents binary64 s 0#11 (BitVec.ofNat 52 m) := by
  have bias : e + (binary64.exponentBias : Int) + (52 : Nat) = e + 1075 := by
    rw [show (binary64.exponentBias : Int) = 1023 from rfl]
    omega
  have room : 2 ^ 11 ≤ (e + 1075).toNat + 1 ↔ 972 ≤ e := by
    have width : 2 ^ 11 = 2048 := rfl
    omega
  have digits : m.log2 + 1 = binary64.mantissaBits ↔ m.log2 = 52 := Nat.succ_inj
  simp only [pack, bias, room, digits]

theorem unpack_pack_finite :
    if 972 ≤ e then unpack binary64 (pack binary64 (.finite s m e positive)) = .infinity s
    else unpack binary64 (pack binary64 (.finite s m e positive)) = .zero s ∨ ∃ m' e' positive',
      unpack binary64 (pack binary64 (.finite s m e positive)) = .finite s m' e' positive' := by
  rw [pack_finite]
  split
  · exact unpack_packedInfinity s
  · rename_i small
    split
    · refine unpack_packComponents s _ _ fun full => ?_
      have value := congrArg BitVec.toNat full
      rw [BitVec.toNat_ofNat, show (-1#11).toNat = 2047 from rfl] at value
      omega
    · exact unpack_packComponents s _ _ (by decide)

theorem unpack_pack_normal (digits : m.log2 = 52) (low : -1074 ≤ e) (high : e ≤ 971) :
    unpack binary64 (pack binary64 (.finite s m e positive)) = .finite s m e positive := by
  have leading := (Nat.log2_eq_iff (Nat.ne_of_gt positive)).mp digits
  have fraction : 2 ^ 52 + (BitVec.ofNat 52 m).toNat = m := by
    rw [BitVec.toNat_ofNat]
    omega
  have field : (BitVec.ofNat 11 (e + 1075).toNat).toNat = (e + 1075).toNat := by
    rw [BitVec.toNat_ofNat]
    omega
  have filled : BitVec.ofNat 11 (e + 1075).toNat ≠ -1#11 := by
    intro same
    have value := congrArg BitVec.toNat same
    rw [field, show (-1#11).toNat = 2047 from rfl] at value
    omega
  have power : BitVec.ofNat 11 (e + 1075).toNat ≠ 0#11 := by
    intro same
    have value := congrArg BitVec.toNat same
    rw [field, show (0#11).toNat = 0 from rfl] at value
    omega
  rw [pack_finite, if_neg (by omega), if_pos digits, unpack_normal _ _ _ filled power (by omega)]
  simp only [fraction, field, UnpackedFloat.finite.injEq, true_and]
  omega

theorem sign?_unpack_pack (u : UnpackedFloat) :
    sign? (unpack binary64 (pack binary64 u)) = sign? u := by
  cases u with
  | notANumber => simp only [pack, unpack_packedNaN]
  | infinity s => simp only [pack, unpack_packedInfinity]
  | zero s => simp only [pack, unpack_packedZero]
  | finite s m e positive =>
    have packed := unpack_pack_finite s m e positive
    split at packed
    · rw [packed]
      rfl
    · rcases packed with packed | ⟨_, _, _, packed⟩
      all_goals
        rw [packed]
        rfl

end Packing

section Rounding

theorem targetExponent_eq (m : Nat) (e : Int) :
    binary64.targetExponent (totalExponent m e) = max ((m.log2 : Int) - 52 + e) (-1074) := by
  have digits : (binary64.mantissaBits : Int) = 53 := rfl
  have least : binary64.minExponent = -1074 := rfl
  rw [Format.targetExponent, totalExponent, digits, least]
  omega

@[simp] theorem mantissa_shiftRight (em : ExtendedMantissa) (n : Nat) :
    (em >>> n).mantissa = em.mantissa / 2 ^ n := by
  show (n.repeat ExtendedMantissa.shiftRightOne em).mantissa = _
  induction n with
  | zero => simp [Nat.repeat]
  | succ n ih =>
    show (n.repeat ExtendedMantissa.shiftRightOne em).mantissa / 2 = _
    rw [ih, Nat.div_div_eq_div_mul, Nat.pow_succ]

private theorem shiftRight_shiftLeft (m n : Nat) :
    (⟨m <<< n, false, false⟩ : ExtendedMantissa) >>> n = ⟨m, false, false⟩ := by
  show n.repeat ExtendedMantissa.shiftRightOne ⟨m <<< n, false, false⟩ = _
  induction n generalizing m with
  | zero => rfl
  | succ n ih =>
    rw [Nat.shiftLeft_succ_inside, Nat.repeat, ih]
    simp [ExtendedMantissa.shiftRightOne]

theorem roundedMantissa_bounds (em : ExtendedMantissa) :
    em.mantissa ≤ em.roundedMantissa ∧ em.roundedMantissa ≤ em.mantissa + 1 := by
  obtain ⟨m, round, sticky⟩ := em
  cases round <;> cases sticky <;>
    simp only [ExtendedMantissa.roundedMantissa, ExtendedMantissa.accuracy,
      Accuracy.roundToNearestEven] <;> omega

theorem mantissa_ofMantissaAndAccuracy (m : Nat) (accuracy : Accuracy) :
    (ExtendedMantissa.ofMantissaAndAccuracy m accuracy).mantissa = m := by
  unfold ExtendedMantissa.ofMantissaAndAccuracy
  split <;> rfl

theorem sign?_roundWithAccuracy (s : Sign) (m : Nat) (e : Int) (accuracy : Accuracy) :
    sign? (roundWithAccuracy binary64 s m e accuracy) = some s := by
  simp only [roundWithAccuracy]
  split <;> rfl

theorem log2_shiftLeft {m : Nat} (positive : m ≠ 0) (n : Nat) : (m <<< n).log2 = m.log2 + n := by
  obtain ⟨low, high⟩ := (Nat.log2_eq_iff positive).mp rfl
  rw [Nat.shiftLeft_eq,
    Nat.log2_eq_iff (Nat.mul_ne_zero positive (Nat.ne_of_gt (Nat.two_pow_pos n)))]
  constructor
  · rw [Nat.pow_add]
    exact Nat.mul_le_mul_right _ low
  · rw [show m.log2 + n + 1 = m.log2 + 1 + n by omega, Nat.pow_add]
    exact Nat.mul_lt_mul_of_pos_right high (Nat.two_pow_pos n)

theorem ne_zero_of_log2 {m : Nat} (digits : 0 < m.log2) : m ≠ 0 := by
  rintro rfl
  exact absurd digits (by decide)

theorem log2_leading {m : Nat} {digits : Nat} (some_digit : 0 < digits) (wide : digits ≤ m.log2) :
    (m / 2 ^ (m.log2 - digits)).log2 = digits := by
  obtain ⟨low, high⟩ :=
    (Nat.log2_eq_iff (ne_zero_of_log2 (Nat.lt_of_lt_of_le some_digit wide))).mp rfl
  have first : 2 ^ digits ≤ m / 2 ^ (m.log2 - digits) := by
    rw [Nat.le_div_iff_mul_le (Nat.two_pow_pos _), ← Nat.pow_add, Nat.add_sub_cancel' wide]
    exact low
  have last : m / 2 ^ (m.log2 - digits) < 2 ^ (digits + 1) := by
    rw [Nat.div_lt_iff_lt_mul (Nat.two_pow_pos _), ← Nat.pow_add,
      show digits + 1 + (m.log2 - digits) = m.log2 + 1 by omega]
    exact high
  exact (Nat.log2_eq_iff (by omega)).mpr ⟨first, last⟩

private theorem shiftToTargetExponent_eq {m : Nat} {e : Int} (wide : 52 ≤ m.log2)
    (low : -1074 ≤ (m.log2 : Int) - 52 + e) (accuracy : Accuracy) :
    shiftToTargetExponent binary64 m e accuracy =
      (ExtendedMantissa.ofMantissaAndAccuracy m accuracy >>> (m.log2 - 52),
      (m.log2 : Int) - 52 + e) := by
  have amount : (max ((m.log2 : Int) - 52 + e) (-1074) - e).toNat = m.log2 - 52 := by omega
  simp only [shiftToTargetExponent, shiftToExponent, targetExponent_eq, amount,
    Prod.mk.injEq, true_and]
  omega

theorem roundWithAccuracy_eq {m : Nat} {e e₁ e₂ : Int} {accuracy : Accuracy}
    {first second : ExtendedMantissa}
    (one : shiftToTargetExponent binary64 m e accuracy = (first, e₁))
    (two : shiftToTargetExponent binary64 first.roundedMantissa e₁ .exact = (second, e₂))
    (positive : 0 < second.mantissa) (s : Sign) :
    roundWithAccuracy binary64 s m e accuracy = .finite s second.mantissa e₂ positive := by
  simp only [roundWithAccuracy, one, two]
  rw [dif_neg (Nat.ne_of_gt positive)]

theorem roundWithAccuracy_normal {m : Nat} {e : Int} (wide : 52 ≤ m.log2)
    (low : -1074 ≤ (m.log2 : Int) - 52 + e) (s : Sign) (accuracy : Accuracy) :
    ∃ m' e' positive, roundWithAccuracy binary64 s m e accuracy =
    .finite s m' e' positive ∧ m'.log2 = 52 ∧
      (m.log2 : Int) - 52 + e ≤ e' ∧ e' ≤ (m.log2 : Int) - 51 + e := by
  have first := shiftToTargetExponent_eq wide low accuracy
  generalize shifted :
    ExtendedMantissa.ofMantissaAndAccuracy m accuracy >>> (m.log2 - 52) = em at first
  have kept : em.mantissa.log2 = 52 := by
    rw [← shifted, mantissa_shiftRight, mantissa_ofMantissaAndAccuracy,
      log2_leading (by decide) wide]
  obtain ⟨least, most⟩ := (Nat.log2_eq_iff (ne_zero_of_log2 (by omega))).mp kept
  obtain ⟨up, down⟩ := roundedMantissa_bounds em
  have digits : em.roundedMantissa.log2 = 52 ∨ em.roundedMantissa.log2 = 53 := by
    rcases Nat.lt_or_ge em.roundedMantissa (2 ^ 53) with same | more
    · exact .inl ((Nat.log2_eq_iff (by omega)).mpr ⟨by omega, same⟩)
    · exact .inr ((Nat.log2_eq_iff (by omega)).mpr ⟨more, by omega⟩)
  have second := shiftToTargetExponent_eq (m := em.roundedMantissa)
    (e := (m.log2 : Int) - 52 + e) (by omega)
    (by omega) .exact
  generalize shortened : ExtendedMantissa.ofMantissaAndAccuracy em.roundedMantissa .exact >>>
    (em.roundedMantissa.log2 - 52) = last at second
  have final : last.mantissa.log2 = 52 := by
    rw [← shortened, mantissa_shiftRight, mantissa_ofMantissaAndAccuracy,
      log2_leading (by decide) (by omega)]
  have positive : 0 < last.mantissa := Nat.pos_of_ne_zero (ne_zero_of_log2 (by omega))
  exact ⟨_, _, positive, roundWithAccuracy_eq first second positive s, final, by omega, by omega⟩

private theorem shiftToTargetExponent_exact {m : Nat} {e : Int} (digits : m.log2 = 52) (n : Nat)
    (low : -1074 ≤ e + n) :
    shiftToTargetExponent binary64 (m <<< n) e .exact = (⟨m, false, false⟩, e + n) := by
  have more : (m <<< n).log2 = 52 + n := by rw [log2_shiftLeft (ne_zero_of_log2 (by omega)), digits]
  rw [shiftToTargetExponent_eq (by omega) (by omega), more, Nat.add_sub_cancel_left,
    ExtendedMantissa.ofMantissaAndAccuracy, shiftRight_shiftLeft]
  exact congrArg (Prod.mk _) (by omega)

theorem roundWithAccuracy_exact {m : Nat} {e : Int} (digits : m.log2 = 52) (positive : 0 < m)
    (n : Nat) (low : -1074 ≤ e + n) (s : Sign) :
    roundWithAccuracy binary64 s (m <<< n) e .exact = .finite s m (e + n) positive := by
  have first := shiftToTargetExponent_exact digits n low
  have second := shiftToTargetExponent_exact (e := e + n) digits 0 (by omega)
  rw [Int.natCast_zero, Int.add_zero] at second
  exact roundWithAccuracy_eq first second positive s

/-- A whole number of at most 53 digits is kept, however it is written. -/
theorem round_exact {n : Nat} (positive : 0 < n) (few : n < 2 ^ 53) (zeros : Nat)
    (filled : 0 < n <<< (52 - n.log2)) :
    UnpackedFloat.round binary64 .positive (n <<< zeros) (-zeros) =
      .finite .positive (n <<< (52 - n.log2)) ((n.log2 : Int) - 52) filled := by
  have short : n.log2 ≤ 52 := Nat.le_of_lt_succ ((Nat.log2_lt (Nat.ne_of_gt positive)).mpr few)
  have digits : (n <<< (52 - n.log2)).log2 = 52 := by
    rw [log2_shiftLeft (Nat.ne_of_gt positive)]
    omega
  have target : binary64.targetExponent (totalExponent (n <<< zeros) (-zeros)) =
    (n.log2 : Int) - 52 := by
    rw [targetExponent_eq, log2_shiftLeft (Nat.ne_of_gt positive)]
    omega
  generalize added : (-(zeros : Int) - ((n.log2 : Int) - 52)).toNat = more
  obtain ⟨beyond, written⟩ : ∃ beyond, zeros + more = 52 - n.log2 + beyond :=
    ⟨zeros + more - (52 - n.log2), by omega⟩
  have mantissa : (n <<< zeros) <<< more = (n <<< (52 - n.log2)) <<< beyond := by
    rw [← Nat.shiftLeft_add, ← Nat.shiftLeft_add, written]
  have exact := roundWithAccuracy_exact (e := -(zeros : Int) - more) digits filled beyond
    (by omega) .positive
  simp only [UnpackedFloat.round, target, decreaseExponent, added, mantissa, exact,
    UnpackedFloat.finite.injEq, true_and]
  omega

end Rounding

end TextArchive.Number.Binary64
