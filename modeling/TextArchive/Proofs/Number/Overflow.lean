import TextArchive.Proofs.Number.Finiteness

/-!
Which results of arithmetic are finite. Rounding makes a number infinite only if it is nearer to the
next power of two than to the greatest double, so that a finite double stays finite when one of
moderate size is added to it, and a double that is not zero does not become zero when it is
multiplied with a number of at least one. A multiple of a number over the number displaced is
therefore undefined just if the number is not finite.
-/

set_option autoImplicit false
set_option relaxedAutoImplicit false

namespace TextArchive.Number.Binary64

open Float.Model (Format UnpackedFloat totalExponent)
open Float.Model.Format (binary64)
open Float.Model.UnpackedFloat

section Rounding

private theorem roundBit_shiftRight_succ (m n : Nat) :
    ((⟨m, false, false⟩ : ExtendedMantissa) >>> (n + 1)).roundBit = (m / 2 ^ n % 2 != 0) := by
  show (((⟨m, false, false⟩ : ExtendedMantissa) >>> n).mantissa % 2 != 0) = _
  rw [mantissa_shiftRight]

private theorem roundedMantissa_le (m n : Nat) :
    ((⟨m, false, false⟩ : ExtendedMantissa) >>> (n + 1)).roundedMantissa ≤ (m / 2 ^ n + 1) / 2 := by
  have kept : ((⟨m, false, false⟩ : ExtendedMantissa) >>> (n + 1)).mantissa = m / 2 ^ n / 2 := by
    rw [mantissa_shiftRight, Nat.pow_succ, Nat.div_div_eq_div_mul]
  have last := roundBit_shiftRight_succ m n
  generalize (⟨m, false, false⟩ : ExtendedMantissa) >>> (n + 1) = em at kept last
  obtain ⟨digits, round, sticky⟩ := em
  simp only at kept last
  subst kept
  have bit := Nat.mod_two_eq_zero_or_one (m / 2 ^ n)
  cases round with
  | false =>
    cases sticky <;> simp only [ExtendedMantissa.roundedMantissa, ExtendedMantissa.accuracy,
      Accuracy.roundToNearestEven]
      <;> omega
  | true =>
    have odd : m / 2 ^ n % 2 = 1 := by
      rcases bit with even | odd
      · rw [even] at last
        cases last
      · exact odd
    have most := (roundedMantissa_bounds ⟨m / 2 ^ n / 2, true, sticky⟩).2
    simp only at most
    omega

private theorem shiftToTargetExponent_again {e : Int} (inside : -1074 ≤ e) (r : Nat) :
    shiftToTargetExponent binary64 r e .exact =
      ((⟨r, false, false⟩ : ExtendedMantissa) >>> (r.log2 - 52),
      e + ((r.log2 - 52 : Nat) : Int)) := by
  have amount : (max ((r.log2 : Int) - 52 + e) (-1074) - e).toNat = r.log2 - 52 := by omega
  simp only [shiftToTargetExponent, shiftToExponent, targetExponent_eq, amount,
    ExtendedMantissa.ofMantissaAndAccuracy]

private theorem log2_shortened (r : Nat) : (r / 2 ^ (r.log2 - 52)).log2 ≤ 52 := by
  rcases Nat.lt_or_ge r.log2 52 with short | wide
  · rw [show r.log2 - 52 = 0 by omega, Nat.pow_zero, Nat.div_one]
    exact Nat.le_of_lt short
  · exact Nat.le_of_eq (log2_leading (by decide) wide)

private theorem shortened_pos {r : Nat} (positive : 0 < r) {n : Nat} (some_left : n ≤ r.log2) :
    0 < r / 2 ^ n := by
  refine Nat.div_pos ?_ (Nat.two_pow_pos n)
  exact (Nat.pow_le_pow_right (by decide) some_left).trans
    (Nat.log2_self_le (Nat.ne_of_gt positive))

private theorem roundWithAccuracy_kept {m n : Nat} {e : Int} (accuracy : Accuracy)
    (positive : 0 < m) (shift : (max ((m.log2 : Int) - 52 + e) (-1074) - e).toNat = n)
    (some_left : n ≤ m.log2) (s : Sign) :
    let r := (ExtendedMantissa.ofMantissaAndAccuracy m accuracy >>> n).roundedMantissa
    0 < r ∧ ∃ positive', roundWithAccuracy binary64 s m e accuracy =
      .finite s (r / 2 ^ (r.log2 - 52)) (e + n + ((r.log2 - 52 : Nat) : Int)) positive' := by
  intro r
  have first : shiftToTargetExponent binary64 m e accuracy =
      (ExtendedMantissa.ofMantissaAndAccuracy m accuracy >>> n, e + (n : Int)) := by
    simp only [shiftToTargetExponent, shiftToExponent, targetExponent_eq, shift]
  have leading : 0 < (ExtendedMantissa.ofMantissaAndAccuracy m accuracy >>> n).mantissa := by
    rw [mantissa_shiftRight, mantissa_ofMantissaAndAccuracy]
    exact shortened_pos positive some_left
  have some_digit : 0 < r := Nat.lt_of_lt_of_le leading (roundedMantissa_bounds _).1
  have second := shiftToTargetExponent_again (e := e + n) (by omega) r
  have left : 0 < ((⟨r, false, false⟩ : ExtendedMantissa) >>> (r.log2 - 52)).mantissa := by
    rw [mantissa_shiftRight]
    exact shortened_pos some_digit (Nat.sub_le _ _)
  have rounded := roundWithAccuracy_eq first second left s
  simp only [mantissa_shiftRight] at rounded left
  exact ⟨some_digit, left, rounded⟩

end Rounding

section Sums

/-- A number in units of the least positive double. -/
def units (m : Nat) (e : Int) : Nat :=
  m * 2 ^ (e + 1074).toNat

/-- The sum of the greatest double and half a unit of its last digit. Only from there on numbers are
rounded up to the next power of two. -/
def overflowUnits : Nat :=
  (2 ^ 54 - 1) * 2 ^ 2044

private theorem overflowUnits_lt : overflowUnits < 2 ^ (54 + 2044) := by
  have less : ∀ k : Nat, (2 ^ 54 - 1) * 2 ^ k < 2 ^ (54 + k) := by
    intro k
    rw [Nat.pow_add]
    exact Nat.mul_lt_mul_of_pos_right (by decide) (Nat.two_pow_pos k)
  unfold overflowUnits
  exact less 2044

private theorem units_shiftLeft (m a : Nat) {e : Int} (inside : -1074 ≤ e - a) :
    units (m <<< a) (e - a) = units m e := by
  unfold units
  rw [Nat.shiftLeft_eq, Nat.mul_assoc, ← Nat.pow_add]
  congr 2
  omega

private theorem lt_of_units_lt {m digits k : Nat} {e : Int} (inside : -1074 ≤ e)
    (leading : 2 ^ digits ≤ m)
    (bounded : units m e < 2 ^ k) : (digits : Int) + e + 1074 < k := by
  have power : 2 ^ (digits + (e + 1074).toNat) < 2 ^ k := by
    rw [Nat.pow_add]
    exact Nat.lt_of_le_of_lt (Nat.mul_le_mul_right _ leading) bounded
  have less := (Nat.pow_lt_pow_iff_right (by decide)).mp power
  omega

private theorem log2_le_of_lt {r digits : Nat} (less : r < 2 ^ (digits + 1)) : r.log2 ≤ digits := by
  rcases Nat.eq_zero_or_pos r with rfl | positive
  · exact Nat.zero_le _
  · exact Nat.le_of_lt_succ ((Nat.log2_lt (Nat.ne_of_gt positive)).mpr less)

private theorem lastUnit_le {m : Nat} {e : Int} (positive : 0 < m) (inside : -1074 ≤ e)
    (below : units m e < overflowUnits) (full : m.log2 < 52 → e ≤ 971) :
    e + ((m.log2 - 52 : Nat) : Int) +
      (((ExtendedMantissa.ofMantissaAndAccuracy m .exact >>> (m.log2 - 52)).roundedMantissa.log2 - 52 : Nat) : Int) ≤
        971 := by
  have reach := lt_of_units_lt inside (Nat.log2_self_le (Nat.ne_of_gt positive))
    (Nat.lt_trans below overflowUnits_lt)
  rw [ExtendedMantissa.ofMantissaAndAccuracy]
  rcases Nat.lt_or_ge 52 m.log2 with long | short
  · obtain ⟨n, beyond⟩ : ∃ n, m.log2 - 52 = n + 1 := ⟨m.log2 - 53, by omega⟩
    rw [beyond]
    have nearest := roundedMantissa_le m n
    generalize ((⟨m, false, false⟩ : ExtendedMantissa) >>> (n + 1)).roundedMantissa = r at nearest
    rcases Nat.lt_or_ge m ((2 ^ 54 - 1) * 2 ^ n) with down | up
    · have quotient : m / 2 ^ n < 2 ^ 54 - 1 := (Nat.div_lt_iff_lt_mul (Nat.two_pow_pos n)).mpr down
      have digits := log2_le_of_lt (show r < 2 ^ (52 + 1) by omega)
      omega
    · have quotient : m / 2 ^ n < 2 ^ 54 := by
        rw [Nat.div_lt_iff_lt_mul (Nat.two_pow_pos n), ← Nat.pow_add,
          show 54 + n = m.log2 + 1 by omega]
        exact Nat.lt_log2_self
      have digits := log2_le_of_lt (show r < 2 ^ (53 + 1) by omega)
      have power : 2 ^ (n + (e + 1074).toNat) < 2 ^ 2044 := by
        refine Nat.lt_of_mul_lt_mul_left (a := 2 ^ 54 - 1) (Nat.lt_of_le_of_lt ?_ below)
        rw [Nat.pow_add, ← Nat.mul_assoc]
        exact Nat.mul_le_mul_right _ up
      have less := (Nat.pow_lt_pow_iff_right (by decide)).mp power
      omega
  · rw [show m.log2 - 52 = 0 by omega]
    have kept : ((⟨m, false, false⟩ : ExtendedMantissa) >>> 0).roundedMantissa = m := rfl
    rw [kept]
    omega

private theorem round_finite {m : Nat} {e : Int} (positive : 0 < m) (inside : -1074 ≤ e)
    (below : units m e < overflowUnits)
    (s : Sign) : ∃ m' e' positive', UnpackedFloat.round binary64 s m e = .finite s m' e' positive' ∧
    e' ≤ 971 := by
  obtain ⟨a, added⟩ : ∃ a : Nat, (e - max ((m.log2 : Int) - 52 + e) (-1074)).toNat = a := ⟨_, rfl⟩
  have rounding : UnpackedFloat.round binary64 s m e =
    roundWithAccuracy binary64 s (m <<< a) (e - a) .exact := by
    simp only [UnpackedFloat.round, targetExponent_eq, decreaseExponent, added]
  have inside' : -1074 ≤ e - a := by omega
  have digits : (m <<< a).log2 = m.log2 + a := log2_shiftLeft (Nat.ne_of_gt positive) a
  have positive' : 0 < m <<< a := by
    rw [Nat.shiftLeft_eq]
    exact Nat.mul_pos positive (Nat.two_pow_pos a)
  have shift : (max (((m <<< a).log2 : Int) - 52 + (e - a)) (-1074) - (e - a)).toNat
    = (m <<< a).log2 - 52 := by omega
  obtain ⟨-, left, result⟩ := roundWithAccuracy_kept .exact positive' shift (Nat.sub_le _ _) s
  refine ⟨_, _, left, rounding.trans result, lastUnit_le positive' inside' ?_ (by omega)⟩
  rwa [units_shiftLeft m a inside']

private theorem normalize_cases (z : Int) (e : Int) (zeroSign : Sign) :
    UnpackedFloat.normalize binary64 z e zeroSign = .zero zeroSign ∨
      0 < z.natAbs ∧ ∃ s, UnpackedFloat.normalize binary64 z e zeroSign =
      UnpackedFloat.round binary64 s z.natAbs e := by
  unfold UnpackedFloat.normalize
  rcases Int.lt_trichotomy z 0 with less | rfl | more
  · rw [Int.compare_eq_lt.mpr less]
    refine .inr ⟨by omega, .negative, ?_⟩
    rw [show z.natAbs = (-z).toNat by omega]
  · exact .inl rfl
  · rw [Int.compare_eq_gt.mpr more]
    refine .inr ⟨by omega, .positive, ?_⟩
    rw [show z.natAbs = z.toNat by omega]

private theorem isFinite_unpack_pack (s : Sign) {m : Nat} {e : Int} (positive : 0 < m)
    (most : e ≤ 971) :
    (unpack binary64 (pack binary64 (.finite s m e positive))).isFinite = true := by
  have packed := unpack_pack_finite s m e positive
  rw [if_neg (by omega)] at packed
  rcases packed with packed | ⟨m', e', positive', packed⟩
  all_goals
    rw [packed]
    rfl

private theorem isFinite_add_finite {s₁ s₂ : Sign} {m₁ m₂ : Nat} {e₁ e₂ : Int} (positive₁ : 0 < m₁)
    (positive₂ : 0 < m₂) (inside₁ : -1074 ≤ e₁) (inside₂ : -1074 ≤ e₂)
    (below : units m₁ e₁ + units m₂ e₂ < overflowUnits) :
    (unpack binary64 (pack binary64 (UnpackedFloat.add binary64 (.finite s₁ m₁ e₁ positive₁)
      (.finite s₂ m₂ e₂ positive₂)))).isFinite = true := by
  obtain ⟨e, least⟩ : ∃ e, min e₁ e₂ = e := ⟨_, rfl⟩
  have first := units_shiftLeft m₁ (e₁ - e).toNat (e := e₁) (by omega)
  have second := units_shiftLeft m₂ (e₂ - e).toNat (e := e₂) (by omega)
  rw [show e₁ - ((e₁ - e).toNat : Int) = e by omega] at first
  rw [show e₂ - ((e₂ - e).toNat : Int) = e by omega] at second
  let sum : Int := s₁.apply (m₁ <<< (e₁ - e).toNat : Nat) + s₂.apply (m₂ <<< (e₂ - e).toNat : Nat)
  have result : UnpackedFloat.add binary64 (.finite s₁ m₁ e₁ positive₁)
    (.finite s₂ m₂ e₂ positive₂) =
      UnpackedFloat.normalize binary64 sum e .positive := by
    simp only [UnpackedFloat.add, decreaseExponent, least, sum]
  have magnitude : sum.natAbs ≤ m₁ <<< (e₁ - e).toNat + m₂ <<< (e₂ - e).toNat := by
    have size : ∀ (s : Sign) (n : Nat), (s.apply (n : Int)).natAbs = n := by
      intro s n
      cases s with
      | positive => exact Int.natAbs_natCast n
      | negative => exact Int.natAbs_neg n
    exact (Int.natAbs_add_le _ _).trans (Nat.le_of_eq (congrArg₂ (· + ·) (size s₁ _) (size s₂ _)))
  rw [result]
  rcases normalize_cases sum e .positive with zero | ⟨some_digit, s, rounded⟩
  · rw [zero]
    rfl
  · have small : units sum.natAbs e < overflowUnits := by
      refine Nat.lt_of_le_of_lt (Nat.mul_le_mul_right _ magnitude) ?_
      rw [Nat.add_mul]
      rw [← first, ← second] at below
      exact below
    obtain ⟨m', e', positive', finite, most⟩ := round_finite some_digit (by omega) small s
    rw [rounded, finite]
    exact isFinite_unpack_pack s positive' most

private theorem units_le {m c k : Nat} {e : Int} (digits : m ≤ c) (most : e + 1074 ≤ k) :
    units m e ≤ c * 2 ^ k :=
  Nat.mul_le_mul digits (Nat.pow_le_pow_right (by decide) (by omega))

private theorem add_lt_overflowUnits {k greatest moderate : Nat} (place : k = 2044)
    (most : greatest ≤ (2 ^ 53 - 1) * 2 ^ (k + 1)) (small : moderate < 2 ^ k) :
    greatest + moderate < overflowUnits := by
  -- the power is a variable, as it would be computed as a numeral
  unfold overflowUnits
  rw [← place]
  rw [Nat.pow_succ] at most
  omega

/-- Whether a double is, but for its sign, below two to the power of 970. -/
def isMild (x : Float) : Bool :=
  x.toBits.toNat / 2 ^ 52 % 2 ^ 11 < 1993

variable {x y : Float}

private theorem isFinite_of_isMild (mild : isMild x = true) : isFinite x = true := by
  obtain ⟨s, pattern⟩ := exists_pattern x
  have below := of_decide_eq_true mild
  rw [isFinite_eq]
  generalize unpacked x = u at pattern
  cases pattern with
  | infinity field_eq => omega
  | notANumber field_eq => omega
  | zero => rfl
  | subnormal => rfl
  | normal => rfl

private theorem exponent_of_isMild (mild : isMild x = true) {s : Sign} {m : Nat} {e : Int}
    {positive : 0 < m}
    (parts : unpacked x = .finite s m e positive) : e ≤ 917 := by
  obtain ⟨s', pattern⟩ := exists_pattern x
  have below := of_decide_eq_true mild
  rw [parts] at pattern
  cases pattern <;> omega

private theorem Spans.isMild {low high : Int} (spans : Spans low high x) (moderate : high ≤ 917) :
    isMild x = true := by
  obtain ⟨m, e, positive, parts, digits, lower, upper⟩ := spans
  obtain ⟨s, pattern⟩ := exists_pattern x
  rw [parts] at pattern
  refine decide_eq_true ?_
  cases pattern <;> omega

/-- A finite double stays finite if a mild one is added. -/
theorem isFinite_add (finite : isFinite x = true) (mild : isMild y = true) :
    isFinite (x + y) = true := by
  rw [isFinite_eq, unpacked_add]
  rcases parts_of_isFinite finite with ⟨s, one⟩ | ⟨s, m, e, positive, one⟩ <;>
    rcases parts_of_isFinite (isFinite_of_isMild mild) with ⟨s', two⟩ |
      ⟨s', m', e', positive', two⟩ <;>
    rw [one, two]
  case inl.inl => cases s <;> cases s' <;> rfl
  case inl.inr => exact isFinite_unpack_pack s' positive' (finite_bounds two).2.2
  case inr.inl => exact isFinite_unpack_pack s positive (finite_bounds one).2.2
  case inr.inr =>
    obtain ⟨short, least, most⟩ := finite_bounds one
    obtain ⟨short', least', -⟩ := finite_bounds two
    have moderate := exponent_of_isMild mild two
    obtain ⟨k, place⟩ : ∃ k : Nat, k = 2044 := ⟨_, rfl⟩
    refine isFinite_add_finite positive positive' least least' (add_lt_overflowUnits place ?_ ?_)
    · exact units_le (by omega) (by omega)
    · have bounded : units m' e' ≤ (2 ^ 53 - 1) * 2 ^ (k - 53) := units_le (by omega) (by omega)
      refine Nat.lt_of_le_of_lt bounded ?_
      rw [show k = k - 53 + 53 by omega, Nat.add_sub_cancel, Nat.pow_add, Nat.mul_comm]
      exact Nat.mul_lt_mul_of_pos_left (by decide) (Nat.two_pow_pos _)

end Sums

section Products

variable {x y : Float}

private theorem unpack_pack_ne_zero (s : Sign) {m : Nat} {e : Int} (positive : 0 < m)
    (short : m.log2 ≤ 52) (inside : -1074 ≤ e)
    (s' : Sign) : unpack binary64 (pack binary64 (.finite s m e positive)) ≠ .zero s' := by
  rcases Int.lt_or_le 971 e with above | most
  · rw [pack_finite, if_pos (by omega), unpack_packedInfinity]
    exact UnpackedFloat.noConfusion
  rcases Nat.lt_or_eq_of_le short with few | full
  · have fraction : (BitVec.ofNat 52 m).toNat = m := by
      rw [BitVec.toNat_ofNat]
      exact Nat.mod_eq_of_lt ((Nat.log2_lt (Nat.ne_of_gt positive)).mp few)
    rw [pack_finite, if_neg (by omega), if_neg (by omega), unpack_subnormal s _ (by omega)]
    exact UnpackedFloat.noConfusion
  · rw [unpack_pack_normal s m e positive full inside most]
    exact UnpackedFloat.noConfusion

private theorem mul_ne_zero {low high : Int} {s : Sign} {m : Nat} {e : Int} {positive : 0 < m}
    (parts : unpacked x = .finite s m e positive) (spans : Spans low high y) (least : -52 ≤ low)
    (s' : Sign) :
    unpacked (x * y) ≠ .zero s' := by
  obtain ⟨m', e', positive', parts', digits, lower, upper⟩ := spans
  have inside := (finite_bounds parts).2.1
  have product : 0 < m * m' := Nat.mul_pos positive positive'
  have wide : 52 ≤ (m * m').log2 := by
    rw [Nat.le_log2 (Nat.ne_of_gt product)]
    exact (Nat.le_mul_of_pos_left m' positive).trans'
      ((Nat.le_log2 (Nat.ne_of_gt positive')).mp (by omega))
  obtain ⟨n, shift⟩ :
    ∃ n, (max (((m * m').log2 : Int) - 52 + (e + e')) (-1074) - (e + e')).toNat = n := ⟨_, rfl⟩
  obtain ⟨-, left, result⟩ := roundWithAccuracy_kept .exact product shift (by omega) (s * .positive)
  rw [unpacked_mul, parts, parts', UnpackedFloat.mul, result]
  exact unpack_pack_ne_zero _ left (log2_shortened _) (by omega) s'

end Products

section Quotients

variable {x y : Float}

theorem isNaN_finite_mul {s : Sign} {m : Nat} {e : Int} {positive : 0 < m}
    (parts : unpacked x = .finite s m e positive) (y : Float) : isNaN (x * y) = isNaN y := by
  rw [isNaN_eq, isNaN_eq, unpacked_mul, sign?_unpack_pack, parts]
  cases unpacked y with
  | finite s' m' e' positive' => rw [UnpackedFloat.mul, sign?_roundWithAccuracy]; rfl
  | _ => rfl

theorem isNaN_mul_finite {s : Sign} {m : Nat} {e : Int} {positive : 0 < m} (x : Float)
    (parts : unpacked y = .finite s m e positive) : isNaN (x * y) = isNaN x := by
  rw [isNaN_eq, isNaN_eq, unpacked_mul, sign?_unpack_pack, parts]
  cases unpacked x with
  | finite s' m' e' positive' => rw [UnpackedFloat.mul, sign?_roundWithAccuracy]; rfl
  | _ => rfl

theorem isNaN_zero_add (x : Float) : isNaN (0.0 + x) = isNaN x := by
  have zero : unpacked 0.0 = .zero .positive := rfl
  rw [isNaN_eq, isNaN_eq, unpacked_add, sign?_unpack_pack, zero]
  cases unpacked x with
  | zero s => cases s <;> rfl
  | _ => rfl

private theorem isNaN_div (defined : isNaN x = false) (some_digit : ∀ s, unpacked x ≠ .zero s)
    (finite : isFinite y = true) :
    isNaN (x / y) = false := by
  rw [isNaN_eq] at defined ⊢
  rw [unpacked_div, sign?_unpack_pack]
  rcases parts_of_isFinite finite with ⟨s', two⟩ | ⟨s', m', e', positive', two⟩ <;> rw [two]
  all_goals
    cases one : unpacked x with
    | notANumber =>
      rw [one] at defined
      cases defined
    | zero s => exact absurd one (some_digit s)
    | infinity s => rfl
    | finite s m e positive =>
      first | rfl | rw [UnpackedFloat.div, sign?_roundWithAccuracy, Option.isNone_some]

/-- A multiple of a number over the number displaced is undefined just if the number is not
finite. -/
theorem isNaN_saturation {low low' high high' : Int} {factor shift : Float}
    (factor_spans : Spans low high factor) (least : -52 ≤ low)
    (shift_spans : Spans low' high' shift) (inside : -1074 ≤ low') (moderate : high' ≤ 917)
    (x : Float) : isNaN (x * factor / (x + shift)) = !isFinite x := by
  have ⟨m, e, positive, parts, _⟩ := factor_spans
  have ⟨m', e', positive', parts', digits, lower, upper⟩ := shift_spans
  cases kind : unpacked x with
  | notANumber =>
    have numerator : unpacked (x * factor) = .notANumber := by
      rw [unpacked_mul, kind]
      exact unpack_packedNaN
    rw [isNaN_eq, isFinite_eq, unpacked_div, sign?_unpack_pack, numerator, kind]
    rfl
  | infinity s =>
    have numerator : unpacked (x * factor) = .infinity (s * .positive) := by
      rw [unpacked_mul, kind, parts]
      exact unpack_packedInfinity _
    have denominator : unpacked (x + shift) = .infinity s := by
      rw [unpacked_add, kind, parts']
      exact unpack_packedInfinity s
    rw [isNaN_eq, isFinite_eq, unpacked_div, sign?_unpack_pack, numerator, denominator, kind]
    rfl
  | zero s =>
    have numerator : unpacked (x * factor) = .zero (s * .positive) := by
      rw [unpacked_mul, kind, parts]
      exact unpack_packedZero
    have denominator : unpacked (x + shift) = .finite .positive m' e' positive' := by
      rw [unpacked_add, kind, parts']
      exact unpack_pack_normal _ _ _ _ digits (by omega) (by omega)
    rw [isNaN_eq, isFinite_eq, unpacked_div, sign?_unpack_pack, numerator, denominator, kind]
    rfl
  | finite s n f some_digit =>
    have finite : isFinite x = true := by
      rw [isFinite_eq, kind]
      rfl
    have defined : isNaN x = false := by
      rw [isNaN_eq, kind]
      rfl
    rw [finite]
    exact isNaN_div ((isNaN_mul_finite x parts).trans defined) (mul_ne_zero kind factor_spans least)
      (isFinite_add finite (shift_spans.isMild moderate))

end Quotients

end TextArchive.Number.Binary64
