import TextArchive.Number.Binary64
import TextArchive.Proofs.Number.Packing

/-!
What is known of the results of arithmetic on doubles: sums, products and quotients of numbers
without a minus are numbers without a minus; those of numbers of moderate size are of moderate size;
sums of small whole numbers are exact.
-/

set_option autoImplicit false
set_option relaxedAutoImplicit false

namespace TextArchive.Number.Binary64

open Float.Model (Format UnpackedFloat totalExponent)
open Float.Model.Format (binary64)
open Float.Model.UnpackedFloat

def unpacked (x : Float) : UnpackedFloat :=
  x.toModel.unpack

/-- Zero, a positive number or infinity. -/
def IsUnsigned (x : Float) : Prop :=
  sign? (unpacked x) = some .positive

def IsPositive (x : Float) : Prop :=
  ∃ m e positive, unpacked x = .finite .positive m e positive

/-- A positive number with all of its digits, whose last one has a place within bounds. -/
def Spans (low high : Int) (x : Float) : Prop :=
  ∃ m e positive, unpacked x = .finite .positive m e positive ∧ m.log2 = 52 ∧ low ≤ e ∧ e ≤ high

theorem Spans.isPositive {low high : Int} {x : Float} (spans : Spans low high x) :
    IsPositive x := by
  obtain ⟨m, e, positive, parts, -⟩ := spans
  exact ⟨m, e, positive, parts⟩

theorem IsPositive.isUnsigned {x : Float} (positive : IsPositive x) : IsUnsigned x := by
  obtain ⟨m, e, positive, parts⟩ := positive
  rw [IsUnsigned, parts]
  rfl

section Operations

variable (x y : Float)

theorem unpacked_add :
    unpacked (x + y) =
    unpack binary64 (pack binary64 (add binary64 (unpacked x) (unpacked y))) := rfl

theorem unpacked_mul :
    unpacked (x * y) =
    unpack binary64 (pack binary64 (mul binary64 (unpacked x) (unpacked y))) := rfl

theorem unpacked_div :
    unpacked (x / y) =
    unpack binary64 (pack binary64 (div binary64 (unpacked x) (unpacked y))) := rfl

end Operations

section Signs

private theorem round_of_pos {m : Int} (positive : 0 < m) (e : Int) (s : Sign) :
    UnpackedFloat.normalize binary64 m e s = UnpackedFloat.round binary64 .positive m.toNat e := by
  rw [UnpackedFloat.normalize, Int.compare_eq_gt.mpr positive]

private theorem add_finite {m₁ m₂ : Nat} (e₁ e₂ : Int) (positive₁ : 0 < m₁) (positive₂ : 0 < m₂) :
    UnpackedFloat.add binary64 (.finite .positive m₁ e₁ positive₁)
    (.finite .positive m₂ e₂ positive₂) =
      UnpackedFloat.round binary64 .positive
      (m₁ <<< (e₁ - min e₁ e₂).toNat + m₂ <<< (e₂ - min e₁ e₂).toNat) (min e₁ e₂) := by
  have first : 0 < m₁ <<< (e₁ - min e₁ e₂).toNat := by
    rw [Nat.shiftLeft_eq]
    exact Nat.mul_pos positive₁ (Nat.two_pow_pos _)
  exact round_of_pos
    (Int.add_pos_of_pos_of_nonneg (Int.natCast_pos.mpr first) (Int.natCast_nonneg _)) _ _

variable {x y : Float}

private theorem IsUnsigned.parts (unsigned : IsUnsigned x) :
    unpacked x = .zero .positive ∨ unpacked x = .infinity .positive ∨
      ∃ m e positive, unpacked x = .finite .positive m e positive := by
  unfold IsUnsigned at unsigned
  cases parts : unpacked x with
  | notANumber =>
    rw [parts] at unsigned
    cases unsigned
  | zero s =>
    rw [parts] at unsigned
    exact .inl (congrArg _ (Option.some.inj unsigned))
  | infinity s =>
    rw [parts] at unsigned
    exact .inr (.inl (congrArg _ (Option.some.inj unsigned)))
  | finite s m e positive =>
    rw [parts] at unsigned
    obtain rfl := Option.some.inj unsigned
    exact .inr (.inr ⟨m, e, positive, rfl⟩)

theorem IsUnsigned.add (first : IsUnsigned x) (second : IsUnsigned y) : IsUnsigned (x + y) := by
  rw [IsUnsigned, unpacked_add, sign?_unpack_pack]
  rcases first.parts with one | one | ⟨m, e, positive, one⟩ <;>
    rcases second.parts with two | two | ⟨m', e', positive', two⟩ <;> rw [one, two]
  case inr.inr.inr.inr =>
    rw [add_finite]
    exact sign?_roundWithAccuracy _ _ _ _
  all_goals rfl

theorem IsPositive.mul (first : IsPositive x) (second : IsUnsigned y) : IsUnsigned (x * y) := by
  obtain ⟨m, e, positive, parts⟩ := first
  rw [IsUnsigned, unpacked_mul, sign?_unpack_pack, parts]
  rcases second.parts with other | other | ⟨m', e', positive', other⟩ <;> rw [other]
  · rfl
  · rfl
  · exact sign?_roundWithAccuracy _ _ _ _

theorem IsPositive.div (first : IsPositive x) (second : IsUnsigned y) : IsUnsigned (x / y) := by
  obtain ⟨m, e, positive, parts⟩ := first
  rw [IsUnsigned, unpacked_div, sign?_unpack_pack, parts]
  rcases second.parts with other | other | ⟨m', e', positive', other⟩ <;> rw [other]
  · rfl
  · rfl
  · exact sign?_roundWithAccuracy _ _ _ _

theorem IsUnsigned.div (first : IsUnsigned x) (second : IsPositive y) : IsUnsigned (x / y) := by
  obtain ⟨m, e, positive, parts⟩ := second
  rw [IsUnsigned, unpacked_div, sign?_unpack_pack, parts]
  rcases first.parts with other | other | ⟨m', e', positive', other⟩ <;> rw [other]
  · rfl
  · rfl
  · exact sign?_roundWithAccuracy _ _ _ _

theorem isSome_sign?_negative (unsigned : IsUnsigned x) :
    (sign? (unpacked (x * -1.0))).isSome = true := by
  have one : unpacked (-1.0) = .finite .negative (2 ^ 52) (-52) (by decide) := rfl
  rw [unpacked_mul, sign?_unpack_pack, one]
  rcases unsigned.parts with parts | parts | ⟨m, e, positive, parts⟩ <;> rw [parts]
  · rfl
  · rfl
  · rw [UnpackedFloat.mul, sign?_roundWithAccuracy]
    rfl

end Signs

section Size

variable {x y : Float} {low high low' high' : Int}

private theorem spans_of_rounded {m : Nat} {e : Int} (accuracy : Accuracy) (wide : 52 ≤ m.log2)
    (least : low ≤ (m.log2 : Int) - 52 + e) (most : (m.log2 : Int) - 51 + e ≤ high)
    (inside : -1074 ≤ low) (bounded : high ≤ 971)
    (rounded : unpacked x = unpack binary64 (pack binary64 (roundWithAccuracy binary64 .positive m e accuracy))) :
    Spans low high x := by
  obtain ⟨m', e', positive, result, digits, lower, upper⟩ :=
    roundWithAccuracy_normal (e := e) wide (by omega) .positive accuracy
  rw [result, unpack_pack_normal _ _ _ _ digits (by omega) (by omega)] at rounded
  exact ⟨m', e', positive, rounded, digits, by omega, by omega⟩

theorem Spans.mul (first : Spans low high x) (second : Spans low' high' y)
    (inside : -1074 ≤ low + low' + 52)
    (bounded : high + high' + 54 ≤ 971) : Spans (low + low' + 52) (high + high' + 54) (x * y) := by
  obtain ⟨m, e, positive, parts, digits, lower, upper⟩ := first
  obtain ⟨m', e', positive', parts', digits', lower', upper'⟩ := second
  have product : 104 ≤ (m * m').log2 ∧ (m * m').log2 < 106 := by
    obtain ⟨least, most⟩ := (Nat.log2_eq_iff (Nat.ne_of_gt positive)).mp digits
    obtain ⟨least', most'⟩ := (Nat.log2_eq_iff (Nat.ne_of_gt positive')).mp digits'
    have some_digit : m * m' ≠ 0 := Nat.ne_of_gt (Nat.mul_pos positive positive')
    have lower : 2 ^ (52 + 52) ≤ m * m' := Nat.pow_add 2 52 52 ▸ Nat.mul_le_mul least least'
    have upper : m * m' < 2 ^ (53 + 53) :=
      Nat.pow_add 2 53 53 ▸ Nat.mul_lt_mul_of_lt_of_lt most most'
    exact ⟨(Nat.le_log2 some_digit).mpr lower, (Nat.log2_lt some_digit).mpr upper⟩
  refine spans_of_rounded (m := m * m') (e := e + e') .exact (by omega) (by omega) (by omega) inside
    bounded ?_
  rw [unpacked_mul, parts, parts']
  rfl

private theorem round_of_wide {m : Nat} {e : Int} (wide : 52 ≤ m.log2) (s : Sign) :
    UnpackedFloat.round binary64 s m e = roundWithAccuracy binary64 s m e .exact := by
  have none_added : (e - max ((m.log2 : Int) - 52 + e) (-1074)).toNat = 0 := by omega
  simp only [UnpackedFloat.round, targetExponent_eq, decreaseExponent, none_added,
    Nat.shiftLeft_zero, Int.natCast_zero, Int.sub_zero]

private theorem log2_add_shiftLeft {m₁ m₂ a b : Nat} (digits₁ : m₁.log2 = 52)
    (digits₂ : m₂.log2 = 52) :
    52 + max a b ≤ (m₁ <<< a + m₂ <<< b).log2 ∧ (m₁ <<< a + m₂ <<< b).log2 < 54 + max a b := by
  obtain ⟨least₁, most₁⟩ := (Nat.log2_eq_iff (ne_zero_of_log2 (by omega))).mp digits₁
  obtain ⟨least₂, most₂⟩ := (Nat.log2_eq_iff (ne_zero_of_log2 (by omega))).mp digits₂
  have power : ∀ c, c ≤ max a b → 2 ^ c ≤ 2 ^ max a b := fun c less =>
    Nat.pow_le_pow_right (by decide) less
  have lower : 2 ^ (52 + max a b) ≤ m₁ <<< a + m₂ <<< b := by
    rw [Nat.shiftLeft_eq, Nat.shiftLeft_eq, Nat.pow_add]
    rcases Nat.le_total a b with less | less
    · rw [Nat.max_eq_right less]
      exact (Nat.mul_le_mul_right _ least₂).trans (Nat.le_add_left _ _)
    · rw [Nat.max_eq_left less]
      exact (Nat.mul_le_mul_right _ least₁).trans (Nat.le_add_right _ _)
  have upper : m₁ <<< a + m₂ <<< b < 2 ^ (54 + max a b) := by
    have one : m₁ * 2 ^ a < 2 ^ 53 * 2 ^ max a b :=
      Nat.lt_of_lt_of_le (Nat.mul_lt_mul_of_pos_right most₁ (Nat.two_pow_pos a))
        (Nat.mul_le_mul_left _ (power a (Nat.le_max_left a b)))
    have two : m₂ * 2 ^ b < 2 ^ 53 * 2 ^ max a b :=
      Nat.lt_of_lt_of_le (Nat.mul_lt_mul_of_pos_right most₂ (Nat.two_pow_pos b))
        (Nat.mul_le_mul_left _ (power b (Nat.le_max_right a b)))
    rw [Nat.shiftLeft_eq, Nat.shiftLeft_eq, Nat.pow_add]
    omega
  have some_digit : m₁ <<< a + m₂ <<< b ≠ 0 := Nat.ne_of_gt
    (Nat.lt_of_lt_of_le (Nat.two_pow_pos _) lower)
  exact ⟨(Nat.le_log2 some_digit).mpr lower, (Nat.log2_lt some_digit).mpr upper⟩

theorem Spans.add (first : Spans low high x) (second : Spans low' high y) (inside : -1074 ≤ low)
    (bounded : high ≤ 969) :
    Spans low (high + 2) (x + y) := by
  obtain ⟨m₁, e₁, positive₁, parts₁, digits₁, lower₁, upper₁⟩ := first
  obtain ⟨m₂, e₂, positive₂, parts₂, digits₂, lower₂, upper₂⟩ := second
  obtain ⟨least, most⟩ := log2_add_shiftLeft (a := (e₁ - min e₁ e₂).toNat)
    (b := (e₂ - min e₁ e₂).toNat) digits₁ digits₂
  have rounded := unpacked_add x y
  rw [parts₁, parts₂, add_finite, round_of_wide (by omega)] at rounded
  exact spans_of_rounded .exact (by omega) (by omega) (by omega) inside (by omega) rounded

private theorem log2_div {m₁ m₂ : Nat} (digits₁ : m₁.log2 = 52) (digits₂ : m₂.log2 = 52) :
    52 ≤ (m₁ <<< 53 / m₂).log2 ∧ (m₁ <<< 53 / m₂).log2 < 54 := by
  obtain ⟨least₁, most₁⟩ := (Nat.log2_eq_iff (ne_zero_of_log2 (by omega))).mp digits₁
  obtain ⟨least₂, most₂⟩ := (Nat.log2_eq_iff (ne_zero_of_log2 (by omega))).mp digits₂
  have lower : 2 ^ 52 ≤ m₁ <<< 53 / m₂ := by
    rw [Nat.shiftLeft_eq, Nat.le_div_iff_mul_le (by omega)]
    omega
  have upper : m₁ <<< 53 / m₂ < 2 ^ 54 := by
    rw [Nat.shiftLeft_eq, Nat.div_lt_iff_lt_mul (by omega)]
    omega
  have some_digit : m₁ <<< 53 / m₂ ≠ 0 := by omega
  exact ⟨(Nat.le_log2 some_digit).mpr lower, (Nat.log2_lt some_digit).mpr upper⟩

theorem Spans.div (first : Spans low high x) (second : Spans low' high' y)
    (inside : -1074 ≤ low - high' - 53)
    (bounded : high - low' - 51 ≤ 971) : Spans (low - high' - 53) (high - low' - 51) (x / y) := by
  obtain ⟨m₁, e₁, positive₁, parts₁, digits₁, lower₁, upper₁⟩ := first
  obtain ⟨m₂, e₂, positive₂, parts₂, digits₂, lower₂, upper₂⟩ := second
  obtain ⟨least, most⟩ := log2_div digits₁ digits₂
  have exponent : min (e₁ - e₂)
    (binary64.targetExponent (totalExponent m₁ e₁ - totalExponent m₂ e₂)) = e₁ - e₂ - 53 := by
    have digits : (binary64.mantissaBits : Int) = 53 := rfl
    have minimal : binary64.minExponent = -1074 := rfl
    rw [Format.targetExponent, totalExponent, totalExponent, digits, minimal, digits₁, digits₂]
    omega
  have shift : (e₁ - e₂ - (e₁ - e₂ - 53)).toNat = 53 := by omega
  have rounded := unpacked_div x y
  rw [parts₁, parts₂] at rounded
  simp only [UnpackedFloat.div, divCore, exponent, shift] at rounded
  exact spans_of_rounded _ (by omega) (by omega) (by omega) inside (by omega) rounded

end Size

section Whole

/-- A whole number of at most 53 digits. -/
def whole (n : Nat) : UnpackedFloat :=
  if positive : 0 < n then
    .finite .positive (n <<< (52 - n.log2)) ((n.log2 : Int) - 52)
      (Nat.shiftLeft_eq .. ▸ Nat.mul_pos positive (Nat.two_pow_pos _))
  else .zero .positive

variable {n : Nat}

private theorem log2_filled (positive : 0 < n) (few : n < 2 ^ 53) :
    n.log2 ≤ 52 ∧ (n <<< (52 - n.log2)).log2 = 52 := by
  have short : n.log2 ≤ 52 := Nat.le_of_lt_succ ((Nat.log2_lt (Nat.ne_of_gt positive)).mpr few)
  refine ⟨short, ?_⟩
  rw [log2_shiftLeft (Nat.ne_of_gt positive)]
  omega

private theorem unpack_pack_whole (few : n < 2 ^ 53) :
    unpack binary64 (pack binary64 (whole n)) = whole n := by
  unfold whole
  split
  · rename_i positive
    obtain ⟨short, digits⟩ := log2_filled positive few
    exact unpack_pack_normal _ _ _ _ digits (by omega) (by omega)
  · exact unpack_packedZero

private theorem whole_of_pos (positive : 0 < n) : ∃ filled,
    whole n = .finite .positive (n <<< (52 - n.log2)) ((n.log2 : Int) - 52) filled := by
  unfold whole
  rw [dif_pos positive]
  exact ⟨_, rfl⟩

private theorem round_whole (positive : 0 < n) (few : n < 2 ^ 53) (zeros : Nat) :
    UnpackedFloat.round binary64 .positive (n <<< zeros) (-zeros) = whole n := by
  obtain ⟨filled, parts⟩ := whole_of_pos positive
  rw [parts, round_exact positive few zeros filled]

private theorem mul_one_whole (few : n < 2 ^ 53) :
    UnpackedFloat.mul binary64 (whole n)
    (.finite .positive (2 ^ 52) (-52) (by decide)) = whole n := by
  unfold whole
  split
  · rename_i positive
    obtain ⟨short, digits⟩ := log2_filled positive few
    have filled := ne_zero_of_log2 (m := n <<< (52 - n.log2)) (by omega)
    have exact := roundWithAccuracy_exact (e := (n.log2 : Int) - 52 + -52) digits
      (Nat.pos_of_ne_zero filled) 52
      (by omega) .positive
    rw [Nat.shiftLeft_eq _ 52] at exact
    refine exact.trans ?_
    simp only [UnpackedFloat.finite.injEq, true_and]
    omega
  · rfl

private theorem ofNat_whole (few : n < 2 ^ 53) :
    Float.Model.UnpackedFloat.ofNat binary64 n = whole n := by
  rcases Nat.eq_zero_or_pos n with rfl | positive
  · rfl
  · have rounded := round_whole positive few 0
    rw [Nat.shiftLeft_zero, Int.natCast_zero, Int.neg_zero] at rounded
    show normalize binary64 n 0 .positive = _
    rw [round_of_pos (Int.natCast_pos.mpr positive), Int.toNat_natCast, rounded]

private theorem ofNat_eq (few : n < 2 ^ 53) : Float.ofNat n = .ofModel (.pack (whole n)) := by
  have size : n.toUInt64.toNat = n := Nat.mod_eq_of_lt (Nat.lt_trans few (by decide))
  have converted : unpacked n.toUInt64.toFloat = whole n := by
    show unpack binary64
      (pack binary64 (Float.Model.UnpackedFloat.ofNat binary64 n.toUInt64.toNat)) = _
    rw [size, ofNat_whole few, unpack_pack_whole few]
  have one : unpacked Float.exactlyRepresentablePowersOfTen[0] = .finite .positive (2 ^ 52) (-52)
    (by decide) := rfl
  have product : Float.ofNat n = n.toUInt64.toFloat * Float.exactlyRepresentablePowersOfTen[0] := by
    show Float.ofScientific n false 0 = _
    rw [Float.ofScientific, dif_pos ⟨few, by decide⟩]
    rfl
  rw [product]
  show Float.ofModel (.pack (UnpackedFloat.mul binary64 (unpacked _) (unpacked _))) = _
  rw [converted, one, mul_one_whole few]

private theorem unpacked_ofNat (few : n < 2 ^ 53) : unpacked (Float.ofNat n) = whole n := by
  rw [ofNat_eq few]
  exact unpack_pack_whole few

private theorem add_whole {a b : Nat} (few : a + b < 2 ^ 53) :
    UnpackedFloat.add binary64 (whole a) (whole b) = whole (a + b) := by
  rcases Nat.eq_zero_or_pos b with rfl | some_second
  · rw [Nat.add_zero]
    unfold whole
    split <;> rfl
  obtain ⟨filled', parts'⟩ := whole_of_pos some_second
  rcases Nat.eq_zero_or_pos a with rfl | some_first
  · rw [Nat.zero_add, parts']
    rfl
  obtain ⟨filled, parts⟩ := whole_of_pos some_first
  have short := (log2_filled some_first (by omega)).1
  have short' := (log2_filled some_second (by omega)).1
  obtain ⟨zeros, unit⟩ : ∃ zeros : Nat, min ((a.log2 : Int) - 52) ((b.log2 : Int) - 52) = -zeros :=
    ⟨52 - min a.log2 b.log2, by omega⟩
  have first : 52 - a.log2 + ((a.log2 : Int) - 52 - -(zeros : Int)).toNat = zeros := by omega
  have second : 52 - b.log2 + ((b.log2 : Int) - 52 - -(zeros : Int)).toNat = zeros := by omega
  have sum : a <<< zeros + b <<< zeros = (a + b) <<< zeros := by
    simp only [Nat.shiftLeft_eq, Nat.add_mul]
  rw [parts, parts', add_finite, unit, ← Nat.shiftLeft_add, ← Nat.shiftLeft_add, first, second, sum,
    round_whole (by omega) few]

theorem ofNat_add {a b : Nat} (few : a + b < 2 ^ 53) :
    Float.ofNat a + Float.ofNat b = Float.ofNat (a + b) := by
  show Float.ofModel (.pack (UnpackedFloat.add binary64 (unpacked _) (unpacked _))) = _
  rw [unpacked_ofNat (by omega), unpacked_ofNat (by omega), add_whole few, ofNat_eq few]

private theorem unpacked_ofNat_rounded (many : 2 ^ 53 ≤ n) : unpacked (Float.ofNat n) =
    unpack binary64
    (pack binary64 (roundWithAccuracy binary64 .positive (n <<< 53) (-53) .exact)) := by
  have converted : Float.ofNat n = .ofModel (.ofScientific n 0) := by
    show Float.ofScientific n false 0 = _
    rw [Float.ofScientific, dif_neg (by omega)]
    rfl
  have room : (0 : Int) ≤ 2 ^ binary64.exponentBits := by decide
  have power : n <<< 53 * 10 ^ 0 = n <<< 53 := by rw [Nat.pow_zero, Nat.mul_one]
  rw [converted, ← power]
  show unpack binary64 (pack binary64 (Float.Model.UnpackedFloat.ofScientific binary64 n 0)) = _
  rw [Float.Model.UnpackedFloat.ofScientific, dif_neg (by omega),
    if_neg (by decide), if_neg (by omega), if_pos (by decide)]
  rfl

theorem isUnsigned_ofNat (n : Nat) : IsUnsigned (Float.ofNat n) := by
  rw [IsUnsigned]
  rcases Nat.lt_or_ge n (2 ^ 53) with few | many
  · rw [unpacked_ofNat few]
    unfold whole
    split <;> rfl
  · rw [unpacked_ofNat_rounded many, sign?_unpack_pack, sign?_roundWithAccuracy]

theorem spans_ofNat {k : Nat} (positive : 0 < n) (bounded : n < 2 ^ k) (moderate : k ≤ 1000) :
    Spans (-52) ((k : Int) - 52) (Float.ofNat n) := by
  have digits : n.log2 < k := (Nat.log2_lt (Nat.ne_of_gt positive)).mpr bounded
  rcases Nat.lt_or_ge n (2 ^ 53) with few | many
  · obtain ⟨filled, parts⟩ := whole_of_pos positive
    obtain ⟨short, full⟩ := log2_filled positive few
    exact ⟨_, _, filled, (unpacked_ofNat few).trans parts, full, by omega, by omega⟩
  · have long : 53 ≤ n.log2 := (Nat.le_log2 (Nat.ne_of_gt positive)).mpr many
    have written : (n <<< 53).log2 = n.log2 + 53 := log2_shiftLeft (Nat.ne_of_gt positive) 53
    exact spans_of_rounded .exact (by omega) (by omega) (by omega) (by omega) (by omega)
      (unpacked_ofNat_rounded many)

end Whole

end TextArchive.Number.Binary64
