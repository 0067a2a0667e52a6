import TextArchive.Proofs.Number.Logarithm
import TextArchive.Proofs.Number.Nearest

/-!
Finite doubles as numbers. A double is its sign and the bits of a magnitude, and it stands for the
number of these bits with this sign. What it means that a number is rounded to a double is said by
the values of doubles alone: the double is in reach of the number, no other is nearer, and where
another is as near it has an even last bit.
-/

set_option autoImplicit false
set_option relaxedAutoImplicit false

namespace TextArchive.Number.Binary64

open Float.Model.Format (binary64)
open Float.Model.UnpackedFloat

section Parts

def isNegative (x : Float) : Bool :=
  signBit ≤ x.toBits.toNat

def magnitude (x : Float) : ℕ :=
  x.toBits.toNat % signBit

def signed (negative : Bool) (r : ℚ) : ℚ :=
  if negative then -r else r

def Parts.value (parts : Parts) : ℚ :=
  signed parts.negative (parts.significand * 2 ^ parts.exponent)

/-- The number that a finite double stands for. -/
def value (x : Float) : ℚ :=
  (parts? x).elim 0 Parts.value

variable {x y : Float}

private theorem toBits_lt (x : Float) : x.toBits.toNat < 2 * signBit :=
  x.toBits.toNat_lt

theorem isFinite_iff : isFinite x = true ↔ magnitude x < infinityBits := by
  have bounded := toBits_lt x
  unfold signBit at bounded
  simp only [isFinite, parts?, partsOfBits, magnitude, infinityBits, signBit]
  split
  · simp only [Option.isSome_none, Bool.false_eq_true, false_iff]
    omega
  split <;> simp only [Option.isSome_some, true_iff] <;> omega

theorem parts?_eq {m f : ℕ} (digits : magnitude x = f * 2 ^ 52 + m) (short : m < 2 ^ 53)
    (full : 2 ^ 52 ≤ m ∨ f = 0)
    (finite : isFinite x = true) : parts? x = some ⟨isNegative x, m, (f : ℤ) - 1074⟩ := by
  have below := isFinite_iff.mp finite
  have bounded := toBits_lt x
  rw [digits] at below
  simp only [magnitude, infinityBits, signBit] at digits below bounded
  simp only [parts?, partsOfBits, leastExponent]
  rw [if_neg (by omega)]
  split
  · rw [show x.toBits.toNat % 2 ^ 52 = m by omega, show (f : ℤ) - 1074 = -1074 by omega]
    rfl
  · rw [show 2 ^ 52 + x.toBits.toNat % 2 ^ 52 = m by omega,
      show ((x.toBits.toNat / 2 ^ 52 % 2048 : ℕ) : ℤ) - 1075 = (f : ℤ) - 1074 by omega]
    rfl

private theorem value_eq (finite : isFinite x = true) :
    value x = signed (isNegative x) (numberOfBits (magnitude x)) := by
  obtain ⟨m, f, digits, short, full⟩ := exists_digits (magnitude x)
  rw [value, parts?_eq digits short full finite, digits, numberOfBits_eq short.le full]
  rfl

theorem eq_of_magnitude (sign : isNegative x = isNegative y) (same : magnitude x = magnitude y) :
    x = y := by
  have bounded := toBits_lt x
  have bounded' := toBits_lt y
  have sign := decide_eq_decide.mp sign
  simp only [magnitude, signBit] at sign same bounded bounded'
  have bits : x.toBits.toNat = y.toBits.toNat := by omega
  obtain ⟨⟨a, _⟩⟩ := x
  obtain ⟨⟨b, _⟩⟩ := y
  obtain rfl : a = b := UInt64.toNat_inj.mp bits
  rfl

private theorem toBits_ofSignAndBits (negative : Bool) {n : ℕ} (finite : n < infinityBits) :
    (ofSignAndBits negative n).toBits.toNat = (if negative then signBit else 0) + n := by
  let b : UInt64 := UInt64.ofNat ((if negative then signBit else 0) + n)
  have stored : b.toBitVec.toNat = (if negative then signBit else 0) + n := by
    refine Nat.mod_eq_of_lt ?_
    unfold infinityBits at finite
    unfold signBit
    split <;> omega
  have number : @isNaNBits binary64 b.toBitVec = false := by
    refine decide_eq_false fun undefined => ?_
    have field : (@unpackExponent binary64 b.toBitVec).toNat = 2047 :=
      congrArg BitVec.toNat undefined.1
    rw [toNat_unpackExponent, stored] at field
    unfold infinityBits at finite
    unfold signBit at field
    split at field <;> omega
  show (pack binary64 (unpack binary64 b.toBitVec)).toNat = _
  rw [pack_unpack, number]
  exact stored

theorem isNegative_ofSignAndBits (negative : Bool) {n : ℕ} (finite : n < infinityBits) :
    isNegative (ofSignAndBits negative n) = negative := by
  simp only [isNegative, toBits_ofSignAndBits negative finite, infinityBits, signBit] at finite ⊢
  cases negative
  · simpa using by omega
  · simp

theorem magnitude_ofSignAndBits (negative : Bool) {n : ℕ} (finite : n < infinityBits) :
    magnitude (ofSignAndBits negative n) = n := by
  simp only [magnitude, toBits_ofSignAndBits negative finite, infinityBits, signBit] at finite ⊢
  split <;> omega

theorem isFinite_ofSignAndBits (negative : Bool) {n : ℕ} (finite : n < infinityBits) :
    isFinite (ofSignAndBits negative n) = true := by
  rwa [isFinite_iff, magnitude_ofSignAndBits negative finite]

theorem ofSignAndBits_magnitude (finite : isFinite x = true) :
    ofSignAndBits (isNegative x) (magnitude x) = x :=
  have below := isFinite_iff.mp finite
  eq_of_magnitude (isNegative_ofSignAndBits _ below) (magnitude_ofSignAndBits _ below)

end Parts

/-- Rounding a number to a finite double, halves to the even last bit. A zero has the sign that is
given. -/
structure RoundsTo (negative : Bool) (q : ℚ) (x : Float) : Prop where
  finite : isFinite x = true
  sign : isNegative x = negative
  /-- A half of the last digit past the largest double the numbers begin that are rounded to
  infinity. -/
  reach : |q| < 2 ^ 1024 - 2 ^ 970
  nearest : ∀ y, isFinite y = true → |q - value x| ≤ |q - value y|
  even : ∀ y, isFinite y = true → value y ≠ value x →
    |q - value y| = |q - value x| → x.toBits.toNat % 2 = 0

section Signed

variable {negative : Bool} {r : ℚ} {x y : Float}

private theorem numberOfBits_zero : numberOfBits 0 = 0 := by
  simp [numberOfBits]

theorem numberOfBits_nonneg (n : ℕ) : 0 ≤ numberOfBits n :=
  numberOfBits_zero.symm.trans_le (numberOfBits_strictMono.monotone (Nat.zero_le n))

theorem rounds_zero_iff : Rounds r 0 ↔ 0 ≤ r ∧ 2 * r ≤ numberOfBits 1 := by
  constructor
  · intro rounds
    have low := rounds.low
    have high := rounds.high
    rw [numberOfBits_zero] at low high
    exact ⟨by linarith, by linarith⟩
  · rintro ⟨nonneg, small⟩
    refine ⟨?_, ?_, fun odd => by cases odd⟩
    · rw [numberOfBits_zero]
      linarith
    · rw [numberOfBits_zero]
      linarith

private theorem signed_injective (negative : Bool) : Function.Injective (signed negative) := by
  intro a b same
  cases negative
  · exact same
  · exact neg_injective same

private theorem abs_sub_value (finite : isFinite x = true) (sign : isNegative x = negative) :
    |signed negative r - value x| = |r - numberOfBits (magnitude x)| := by
  rw [value_eq finite, sign]
  cases negative
  · rfl
  · rw [← abs_neg]
    congr 1
    simp only [signed, if_true]
    ring

private theorem abs_sub_value_of_other (nonneg : 0 ≤ r) (finite : isFinite y = true)
    (other : isNegative y ≠ negative) :
    |signed negative r - value y| = r + numberOfBits (magnitude y) := by
  have sum_nonneg := add_nonneg nonneg (numberOfBits_nonneg (magnitude y))
  rw [value_eq finite]
  cases negative
  · rw [eq_true_of_ne_false other]
    simpa [signed] using sum_nonneg
  · rw [eq_false_of_ne_true other, ← abs_neg]
    simpa [signed, add_comm] using sum_nonneg

private theorem le_abs_sub_value (nonneg : 0 ≤ r) (finite : isFinite y = true) :
    |r - numberOfBits (magnitude y)| ≤ |signed negative r - value y| := by
  by_cases sign : isNegative y = negative
  · exact (abs_sub_value finite sign).ge
  · have magnitude_nonneg := numberOfBits_nonneg (magnitude y)
    rw [abs_sub_value_of_other nonneg finite sign]
    exact abs_le.mpr ⟨by linarith, by linarith⟩

private theorem Rounds.abs_sub_value_ne (rounds : Rounds r (magnitude x)) (nonneg : 0 ≤ r)
    (finite : isFinite x = true) (sign : isNegative x = negative) (finite' : isFinite y = true)
    (same : magnitude y = magnitude x) (apart : value y ≠ value x) :
    |signed negative r - value y| ≠ |signed negative r - value x| := by
  have other : isNegative y ≠ negative := fun equal =>
    apart (congrArg value (eq_of_magnitude (equal.trans sign.symm) same))
  have some_digit : 0 < numberOfBits (magnitude x) := by
    refine lt_of_le_of_ne (numberOfBits_nonneg _) fun zero => apart ?_
    rw [value_eq finite, value_eq finite', same, ← zero]
    simp [signed]
  have positive : 0 < r := by linarith [rounds.low, numberOfBits_nonneg (magnitude x - 1)]
  rw [abs_sub_value_of_other nonneg finite' other, abs_sub_value finite sign, same]
  exact (abs_lt.mpr ⟨by linarith, by linarith⟩).ne'

private theorem middle_of_infinity : numberOfBits
    (infinityBits - 1) + numberOfBits infinityBits = 2 * (2 ^ 1024 - 2 ^ 970) := by
  have places : (2 : ℚ) ^ 971 = 2 * 2 ^ 970 ∧ (2 : ℚ) ^ 972 = 4 * 2 ^ 970 ∧
    (2 : ℚ) ^ 1024 = 2 ^ 54 * 2 ^ 970 := by
    refine ⟨pow_succ' _ _, ?_, by rw [← pow_add]⟩
    rw [show 972 = 2 + 970 from rfl, pow_add]
    norm_num
  have greatest : numberOfBits (infinityBits - 1) = (2 ^ 53 - 1) * 2 ^ 971 := by
    have number := numberOfBits_eq (m := 2 ^ 53 - 1) (f := 2045) (by omega) (by omega)
    rw [show infinityBits - 1 = 2045 * 2 ^ 52 + (2 ^ 53 - 1) from rfl, number, lastDigit,
      show ((2045 : ℕ) : ℤ) - 1074 = (971 : ℕ) from rfl, zpow_natCast]
    norm_num
  have next : numberOfBits infinityBits = 2 ^ 52 * 2 ^ 972 := by
    have number := numberOfBits_eq (m := 2 ^ 52) (f := 2046) (by omega) (by omega)
    rw [show infinityBits = 2046 * 2 ^ 52 + 2 ^ 52 from rfl, number, lastDigit,
      show ((2046 : ℕ) : ℤ) - 1074 = (972 : ℕ) from rfl, zpow_natCast]
    push_cast
    rfl
  rw [greatest, next, places.1, places.2.1, places.2.2]
  generalize (2 : ℚ) ^ 970 = unit
  ring

theorem Rounds.lt_reach {n : ℕ} (rounds : Rounds r n) (finite : n < infinityBits) :
    r < 2 ^ 1024 - 2 ^ 970 := by
  have middle := middle_of_infinity
  generalize (2 : ℚ) ^ 1024 - 2 ^ 970 = reach at middle ⊢
  rcases Nat.lt_or_eq_of_le (Nat.le_sub_one_of_lt finite) with less | rfl
  · have least := numberOfBits_strictMono.monotone (show n + 1 ≤ infinityBits from finite)
    linarith [rounds.high, numberOfBits_strictMono less]
  · have inside := (rounds.inside rfl).2
    rw [show infinityBits - 1 + 1 = infinityBits from rfl] at inside
    linarith

theorem Rounds.reach_le {n : ℕ} (rounds : Rounds r n) (past : infinityBits ≤ n) :
    2 ^ 1024 - 2 ^ 970 ≤ r := by
  have middle := middle_of_infinity
  generalize (2 : ℚ) ^ 1024 - 2 ^ 970 = reach at middle ⊢
  have greatest := numberOfBits_strictMono.monotone (Nat.sub_le_sub_right past 1)
  linarith [rounds.low, numberOfBits_strictMono.monotone past]

private theorem toBits_mod_two (x : Float) : x.toBits.toNat % 2 = magnitude x % 2 := by
  simp only [magnitude, signBit]
  omega

theorem RoundsTo.isNearest (rounds : RoundsTo negative (signed negative r) x) :
    IsNearest infinityBits r (magnitude x) := by
  have dist := abs_sub_value (r := r) rounds.finite rounds.sign
  refine ⟨isFinite_iff.mp rounds.finite, fun k below => ?_, fun k below apart same => ?_⟩
  all_goals
    have finite := isFinite_ofSignAndBits negative below
    have sign := isNegative_ofSignAndBits negative below
    have bits := magnitude_ofSignAndBits negative below
    have dist_k := abs_sub_value (r := r) finite sign
    rw [bits] at dist_k
  · rw [← dist, ← dist_k]
    exact rounds.nearest _ finite
  · rw [← toBits_mod_two]
    refine rounds.even _ finite ?_ (by rw [dist_k, dist, same])
    rw [value_eq finite, value_eq rounds.finite, sign, rounds.sign, bits]
    exact fun equal => apart (numberOfBits_strictMono.injective (signed_injective negative equal))

theorem Rounds.roundsTo (rounds : Rounds r (magnitude x)) (nonneg : 0 ≤ r)
    (finite : isFinite x = true)
    (sign : isNegative x = negative) : RoundsTo negative (signed negative r) x := by
  have nearest := rounds.isNearest (isFinite_iff.mp finite)
  have dist := abs_sub_value (r := r) finite sign
  refine ⟨finite, sign, ?_, fun y finite' => ?_, fun y finite' apart same => ?_⟩
  · have size : |signed negative r| = r := by
      cases negative <;> simp [signed, abs_of_nonneg nonneg]
    rw [size]
    exact rounds.lt_reach (isFinite_iff.mp finite)
  · rw [dist]
    exact (nearest.nearest _ (isFinite_iff.mp finite')).trans (le_abs_sub_value nonneg finite')
  · rw [toBits_mod_two]
    by_cases equal : magnitude y = magnitude x
    · exact absurd same (rounds.abs_sub_value_ne nonneg finite sign finite' equal apart)
    · have below := isFinite_iff.mp finite'
      refine nearest.even _ below equal (le_antisymm ?_ (nearest.nearest _ below))
      rw [← dist, ← same]
      exact le_abs_sub_value nonneg finite'

/-- The rounding of a number to the magnitude of a double is its rounding to this double, and to no
other. -/
theorem roundsTo_iff (nonneg : 0 ≤ r) (finite : isFinite x = true) (sign : isNegative x = negative)
    (rounds : Rounds r (magnitude x)) : RoundsTo negative (signed negative r) y ↔ y = x := by
  constructor
  · intro other
    have same := other.isNearest.unique (rounds.isNearest (isFinite_iff.mp finite))
    exact eq_of_magnitude (other.sign.trans sign.symm) same
  · rintro rfl
    exact rounds.roundsTo nonneg finite sign

end Signed

end TextArchive.Number.Binary64
