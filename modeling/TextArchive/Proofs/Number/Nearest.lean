import Mathlib
import TextArchive.Number.Binary64

/-!
Rounding to the nearest double. The bits of a double without its sign count the doubles from zero
on, and the number that they stand for grows with them. A number is rounded to the bits whose number
is nearest to it, of two that are as near to those that are even; the bits that a quotient is
rounded to are these.
-/

set_option autoImplicit false
set_option relaxedAutoImplicit false

namespace TextArchive.Number

theorem pow_toNat_div {b : ℚ} (nonzero : b ≠ 0) (e : ℤ) : b ^ e.toNat / b ^ (-e).toNat = b ^ e := by
  rw [← zpow_natCast, ← zpow_natCast, ← zpow_sub₀ nonzero]
  congr 1
  omega

theorem mul_ten_zpow (n : ℕ) (e : ℤ) : (n * 10 ^ e : ℚ) = (n * 10 ^ e.toNat : ℕ) /
    (10 ^ (-e).toNat : ℕ) := by
  rw [← pow_toNat_div (by norm_num)]
  push_cast
  rw [mul_div_assoc]

namespace Rounding

section Nearest

variable (num : ℕ) {den : ℕ} (positive : 0 < den)
include positive

private theorem nearest_bounds :
    2 * (nearest num den : ℚ) - 1 ≤ 2 * (num / den) ∧ 2 *
    (num / den : ℚ) ≤ 2 * nearest num den + 1 := by
  have above : (2 * (nearest num den * den) : ℚ) ≤ 2 * num + den :=
    mod_cast nearest_le num den positive
  have below : (2 * num : ℚ) ≤ 2 * (nearest num den * den) + den :=
    mod_cast le_nearest num den positive
  have divisor : (0 : ℚ) < den := mod_cast positive
  rw [← mul_div_assoc, le_div_iff₀ divisor, div_le_iff₀ divisor]
  constructor <;> linarith

private theorem nearest_bounds_of_odd (odd : nearest num den % 2 = 1) :
    2 * (nearest num den : ℚ) - 1 < 2 * (num / den) ∧ 2 *
    (num / den : ℚ) < 2 * nearest num den + 1 := by
  have inside : 2 * (nearest num den * den) < 2 * num + den ∧
    2 * num < 2 * (nearest num den * den) + den := by
    have whole := Nat.div_add_mod num den
    have rest := Nat.mod_lt num positive
    have swapped : den * (num / den) = num / den * den := Nat.mul_comm _ _
    simp only [nearest] at odd ⊢
    split at odd
    · rename_i up
      simp only [Bool.or_eq_true, decide_eq_true_eq, Bool.and_eq_true] at up
      rw [if_pos (by simpa using up), Nat.add_mul]
      omega
    · rename_i down
      simp only [Bool.or_eq_true, decide_eq_true_eq, Bool.and_eq_true, not_or] at down
      rw [if_neg (by simpa using down)]
      omega
  have above : (2 * (nearest num den * den) : ℚ) < 2 * num + den := mod_cast inside.1
  have below : (2 * num : ℚ) < 2 * (nearest num den * den) + den := mod_cast inside.2
  have divisor : (0 : ℚ) < den := mod_cast positive
  rw [← mul_div_assoc, lt_div_iff₀ divisor, div_lt_iff₀ divisor]
  constructor <;> linarith

end Nearest

section Units

variable {num den : ℕ}

private theorem quotient_in_units (num den : ℕ) (e : ℤ) :
    ((num * 2 ^ (-e).toNat : ℕ) : ℚ) / (den * 2 ^ e.toNat : ℕ) = num / den / 2 ^ e := by
  rw [← pow_toNat_div two_ne_zero e]
  push_cast
  rw [mul_div_mul_comm, div_div_eq_mul_div, mul_div_assoc]

private theorem two_pow_mul (n : ℕ) (e : ℤ) : (2 : ℚ) ^ n * 2 ^ e = 2 ^ ((n : ℤ) + e) := by
  rw [zpow_add₀ two_ne_zero, zpow_natCast]

private theorem quotient_bounds (some_part : 0 < num) (some_divisor : 0 < den) :
    (2 : ℚ) ^ ((num.log2 : ℤ) - den.log2 - 1) ≤ num / den ∧
      (num / den : ℚ) < 2 ^ ((num.log2 : ℤ) - den.log2 + 1) := by
  obtain ⟨num_low, num_high⟩ := (Nat.log2_eq_iff some_part.ne').mp rfl
  obtain ⟨den_low, den_high⟩ := (Nat.log2_eq_iff some_divisor.ne').mp rfl
  have divisor : (0 : ℚ) < den := mod_cast some_divisor
  have num_low : (2 : ℚ) ^ num.log2 ≤ num := mod_cast num_low
  have num_high : (num : ℚ) < 2 ^ (num.log2 + 1) := mod_cast num_high
  have den_low : (2 : ℚ) ^ den.log2 ≤ den := mod_cast den_low
  have den_high : (den : ℚ) ≤ 2 ^ (den.log2 + 1) := mod_cast den_high.le
  constructor
  · rw [le_div_iff₀ divisor]
    calc
      (2 : ℚ) ^ ((num.log2 : ℤ) - den.log2 - 1) * den
        ≤ 2 ^ ((num.log2 : ℤ) - den.log2 - 1) * 2 ^ (den.log2 + 1) := by gcongr
      _ = 2 ^ num.log2 := by
        rw [mul_comm, two_pow_mul, ← zpow_natCast]
        congr 1
        push_cast
        ring
      _ ≤ num := num_low
  · rw [div_lt_iff₀ divisor]
    calc
      (num : ℚ) < 2 ^ (num.log2 + 1) := num_high
      _ = 2 ^ ((num.log2 : ℤ) - den.log2 + 1) * 2 ^ den.log2 := by
        rw [mul_comm, two_pow_mul, ← zpow_natCast]
        congr 1
        push_cast
        ring
      _ ≤ 2 ^ ((num.log2 : ℤ) - den.log2 + 1) * den := by gcongr

private theorem unitExponent_bounds (digits : ℕ) (some_part : 0 < num) (some_divisor : 0 < den) :
    2 ^ digits * (2 : ℚ) ^ unitExponent (digits + 1) num den ≤ num / den ∧
      (num / den : ℚ) < 2 ^ (digits + 1) * 2 ^ unitExponent (digits + 1) num den := by
  obtain ⟨low, high⟩ := quotient_bounds some_part some_divisor
  obtain ⟨e, e_eq⟩ : ∃ e : ℤ, (num.log2 : ℤ) - den.log2 - (digits + 1 : ℕ) + 1 = e := ⟨_, rfl⟩
  have unit : (0 : ℚ) < 2 ^ e := zpow_pos two_pos e
  have test : num * 2 ^ (-e).toNat / (den * 2 ^ e.toNat) < 2 ^ digits ↔
    (num / den : ℚ) < 2 ^ digits * 2 ^ e := by
    have scaled : 0 < den * 2 ^ e.toNat := Nat.mul_pos some_divisor (Nat.two_pow_pos _)
    rw [Nat.div_lt_iff_lt_mul scaled, ← div_lt_iff₀ unit, ← quotient_in_units,
      div_lt_iff₀ (mod_cast scaled)]
    norm_cast
  simp only [unitExponent, e_eq, Nat.add_sub_cancel, two_pow_mul] at test ⊢
  split
  · rename_i small
    refine ⟨le_of_eq_of_le (by congr 1; omega) low,
      lt_of_lt_of_eq (test.mp small) (by congr 1; omega)⟩
  · rename_i large
    exact ⟨le_of_not_gt (mt test.mpr large), lt_of_lt_of_eq high (by congr 1; omega)⟩

end Units

end Rounding

namespace Binary64

/-- The value of the last binary digit, by the exponent as it is counted from the least one. -/
def lastDigit (f : ℕ) : ℚ :=
  2 ^ ((f : ℤ) - 1074)

private theorem lastDigit_pos (f : ℕ) : 0 < lastDigit f :=
  zpow_pos two_pos _

private theorem lastDigit_succ (f : ℕ) : lastDigit (f + 1) = 2 * lastDigit f := by
  unfold lastDigit
  rw [← zpow_one_add₀ two_ne_zero]
  congr 1
  push_cast
  ring

/-- The number that bits without a sign stand for. From the bits of infinity on it is the number
that would come next. -/
def numberOfBits (n : ℕ) : ℚ :=
  (n - (n / 2 ^ 52 - 1) * 2 ^ 52 : ℕ) * lastDigit (n / 2 ^ 52 - 1)

section Bits

variable {m f : ℕ}

theorem numberOfBits_eq (short : m ≤ 2 ^ 53) (full : 2 ^ 52 ≤ m ∨ f = 0) :
    numberOfBits (f * 2 ^ 52 + m) = m * lastDigit f := by
  unfold numberOfBits
  rcases Nat.lt_or_ge m (2 ^ 52) with less | more
  · obtain rfl : f = 0 := by omega
    rw [show (0 * 2 ^ 52 + m) / 2 ^ 52 - 1 = 0 by omega,
      show 0 * 2 ^ 52 + m - 0 * 2 ^ 52 = m by omega]
  rcases Nat.lt_or_eq_of_le short with kept | rfl
  · rw [show (f * 2 ^ 52 + m) / 2 ^ 52 - 1 = f by omega, Nat.add_sub_cancel_left]
  · rw [show (f * 2 ^ 52 + 2 ^ 53) / 2 ^ 52 - 1 = f + 1 by omega,
      show f * 2 ^ 52 + 2 ^ 53 - (f + 1) * 2 ^ 52 = 2 ^ 52 by omega, lastDigit_succ]
    push_cast
    ring

theorem exists_digits (n : ℕ) : ∃ m f, n = f * 2 ^ 52 + m ∧ m < 2 ^ 53 ∧ (2 ^ 52 ≤ m ∨ f = 0) :=
  ⟨n - (n / 2 ^ 52 - 1) * 2 ^ 52, n / 2 ^ 52 - 1, by omega, by omega, by omega⟩

theorem numberOfBits_strictMono : StrictMono numberOfBits := by
  refine strictMono_nat_of_lt_succ fun n => ?_
  obtain ⟨m, f, rfl, short, full⟩ := exists_digits n
  rw [Nat.add_assoc, numberOfBits_eq short.le full, numberOfBits_eq short (by omega)]
  exact mul_lt_mul_of_pos_right (mod_cast m.lt_succ_self) (lastDigit_pos f)

private theorem le_numberOfBits_succ (short : m ≤ 2 ^ 53) (full : 2 ^ 52 ≤ m ∨ f = 0) :
    (m + 1) * lastDigit f ≤ numberOfBits (f * 2 ^ 52 + m + 1) := by
  have positive := lastDigit_pos f
  rcases Nat.lt_or_eq_of_le short with less | rfl
  · rw [Nat.add_assoc, numberOfBits_eq less (by omega)]
    push_cast
    exact le_rfl
  · rw [show f * 2 ^ 52 + 2 ^ 53 + 1 = (f + 1) * 2 ^ 52 + (2 ^ 52 + 1) by omega,
      numberOfBits_eq (by omega) (by omega), lastDigit_succ]
    push_cast
    linarith

theorem numberOfBits_pred (some_digit : 0 < m) (short : m ≤ 2 ^ 53) (kept : 2 ^ 52 < m ∨ f = 0) :
    numberOfBits (f * 2 ^ 52 + m - 1) = (m - 1) * lastDigit f := by
  rw [Nat.add_sub_assoc some_digit, numberOfBits_eq (by omega) (by omega), Nat.cast_pred some_digit]

theorem numberOfBits_pred_of_power (f : ℕ) :
    numberOfBits ((f + 1) * 2 ^ 52 + 2 ^ 52 - 1) = (2 ^ 52 - 1 / 2) * lastDigit (f + 1) := by
  rw [show (f + 1) * 2 ^ 52 + 2 ^ 52 - 1 = f * 2 ^ 52 + (2 ^ 53 - 1) by omega,
    numberOfBits_eq (by omega) (by omega), lastDigit_succ]
  push_cast
  ring

end Bits

section Distance

variable {q a b : ℚ} (less : a < b)
include less

private theorem dist_le_dist_iff : |q - a| ≤ |q - b| ↔ 2 * q ≤ a + b := by
  rw [← sq_le_sq]
  constructor <;> intro h <;> nlinarith

private theorem dist_ge_dist_iff : |q - b| ≤ |q - a| ↔ a + b ≤ 2 * q := by
  rw [← sq_le_sq]
  constructor <;> intro h <;> nlinarith

end Distance

/-- Bits below a limit whose number is nearest to a given one; where others stand for a number as
near, they are even. -/
structure IsNearest (limit : ℕ) (q : ℚ) (n : ℕ) : Prop where
  below : n < limit
  nearest : ∀ k < limit, |q - numberOfBits n| ≤ |q - numberOfBits k|
  even : ∀ k < limit, k ≠ n → |q - numberOfBits k| = |q - numberOfBits n| → n % 2 = 0

/-- A number between the middles to the left and to the right of the number that bits stand for; the
middles belong to even bits. -/
structure Rounds (q : ℚ) (n : ℕ) : Prop where
  low : numberOfBits (n - 1) + numberOfBits n ≤ 2 * q
  high : 2 * q ≤ numberOfBits n + numberOfBits (n + 1)
  inside : n % 2 = 1 → numberOfBits (n - 1) + numberOfBits n < 2 * q ∧
    2 * q < numberOfBits n + numberOfBits (n + 1)

section Nearest

variable {limit m n : ℕ} {q : ℚ}

private theorem IsNearest.not_lt (first : IsNearest limit q m) (second : IsNearest limit q n) :
    ¬ m < n := by
  intro less
  have same : |q - numberOfBits m| = |q - numberOfBits n| :=
    le_antisymm (first.nearest n second.below) (second.nearest m first.below)
  have even := first.even n second.below (Nat.ne_of_gt less) same.symm
  have even' := second.even m first.below (Nat.ne_of_lt less) same
  have between : m + 1 < n := by omega
  have left := (dist_le_dist_iff (numberOfBits_strictMono m.lt_succ_self)).mp
    (first.nearest (m + 1) (between.trans second.below))
  have right := (dist_ge_dist_iff (numberOfBits_strictMono less)).mp same.ge
  linarith [numberOfBits_strictMono between]

theorem IsNearest.unique (first : IsNearest limit q m) (second : IsNearest limit q n) : m = n :=
  Nat.le_antisymm (Nat.le_of_not_lt (second.not_lt first)) (Nat.le_of_not_lt (first.not_lt second))

theorem Rounds.isNearest (rounds : Rounds q n) (below : n < limit) : IsNearest limit q n where
  below := below
  nearest := by
    intro k _
    rcases Nat.lt_trichotomy k n with less | rfl | more
    · refine (dist_ge_dist_iff (numberOfBits_strictMono less)).mpr ?_
      linarith [rounds.low, numberOfBits_strictMono.monotone (show k ≤ n - 1 by omega)]
    · exact le_rfl
    · refine (dist_le_dist_iff (numberOfBits_strictMono more)).mpr ?_
      linarith [rounds.high, numberOfBits_strictMono.monotone (show n + 1 ≤ k from more)]
  even := by
    intro k _ other same
    by_contra odd
    obtain ⟨left, right⟩ := rounds.inside (by omega)
    rcases Nat.lt_or_gt_of_ne other with less | more
    · have middle := (dist_le_dist_iff (numberOfBits_strictMono less)).mp same.le
      linarith [numberOfBits_strictMono.monotone (show k ≤ n - 1 by omega)]
    · have middle := (dist_ge_dist_iff (numberOfBits_strictMono more)).mp same.le
      linarith [numberOfBits_strictMono.monotone (show n + 1 ≤ k from more)]

theorem Rounds.unique (first : Rounds q m) (second : Rounds q n) : m = n :=
  (first.isNearest (show m < m + n + 1 by omega)).unique (second.isNearest (by omega))

end Nearest

section Rounding

variable {k f : ℕ} {t : ℚ}

/-- A number of last digits is rounded to the whole number that is nearest to it. -/
theorem rounds_of_nearest (nonneg : 0 ≤ t) (short : k ≤ 2 ^ 53) (full : 2 ^ 52 ≤ k ∨ f = 0)
    (leading : 2 ^ 52 ≤ t ∨ f = 0) (near : 2 * (k : ℚ) - 1 ≤ 2 * t ∧ 2 * t ≤ 2 * k + 1)
    (odd : k % 2 = 1 → 2 * (k : ℚ) - 1 < 2 * t ∧ 2 * t < 2 * k + 1) :
    Rounds (t * lastDigit f) (f * 2 ^ 52 + k) := by
  have positive := lastDigit_pos f
  have number := numberOfBits_eq short full
  have next := le_numberOfBits_succ short full
  have parity : (f * 2 ^ 52 + k) % 2 = k % 2 := by omega
  refine ⟨?_, by nlinarith [near.2], fun bit => ?_⟩
  · rcases Nat.eq_zero_or_pos k with rfl | some_digit
    · rw [show f * 2 ^ 52 + 0 - 1 = f * 2 ^ 52 + 0 by omega, number]
      push_cast
      nlinarith
    by_cases kept : 2 ^ 52 < k ∨ f = 0
    · rw [number, numberOfBits_pred some_digit short kept]
      nlinarith [near.1]
    · have less := numberOfBits_strictMono (show f * 2 ^ 52 + k - 1 < f * 2 ^ 52 + k by omega)
      have leading : (k : ℚ) ≤ t := by
        rw [show k = 2 ^ 52 by omega]
        push_cast
        exact leading.resolve_right (by omega)
      nlinarith
  · obtain ⟨left, right⟩ := odd (parity.symm.trans bit)
    rw [number, numberOfBits_pred (by omega) short (by omega)]
    exact ⟨by nlinarith, by nlinarith⟩

/-- A quotient is rounded to the bits whose number is nearest, as far as doubles reach. -/
theorem exists_rounds_magnitudeBits {num den : ℕ} (some_part : 0 < num) (some_divisor : 0 < den) :
    ∃ n, magnitudeBits num den = min n infinityBits ∧ Rounds (num / den) n := by
  obtain ⟨low, high⟩ := Rounding.unitExponent_bounds 52 some_part some_divisor
  obtain ⟨f, place⟩ : ∃ f :
    ℕ, max (Rounding.unitExponent (52 + 1) num den) leastExponent = f - 1074 :=
    ⟨(max (Rounding.unitExponent (52 + 1) num den) leastExponent + 1074).toNat,
      by unfold leastExponent; omega⟩
  have bits : magnitudeBits num den = min (f * 2 ^ 52 + Rounding.inUnits num den (f - 1074))
    infinityBits := by
    have steps : ((f : ℤ) - 1074 - leastExponent).toNat = f := by
      unfold leastExponent
      omega
    simp only [magnitudeBits, if_neg some_part.ne', place, steps]
  refine ⟨_, bits, ?_⟩
  have positive := lastDigit_pos f
  have divisor : 0 < den * 2 ^ ((f : ℤ) - 1074).toNat :=
    Nat.mul_pos some_divisor (Nat.two_pow_pos _)
  have near := Rounding.nearest_bounds (num * 2 ^ (-((f : ℤ) - 1074)).toNat) divisor
  have odd := Rounding.nearest_bounds_of_odd (num * 2 ^ (-((f : ℤ) - 1074)).toNat) divisor
  have below : (num / den : ℚ) / lastDigit f < 2 ^ 53 := by
    rw [div_lt_iff₀ positive]
    refine lt_of_lt_of_le high (mul_le_mul_of_nonneg_left ?_ (by positivity))
    exact zpow_le_zpow_right₀ one_le_two (by omega)
  have leading : 2 ^ 52 ≤ (num / den : ℚ) / lastDigit f ∨ f = 0 := by
    rcases max_choice (Rounding.unitExponent (52 + 1) num den) leastExponent with unit | least
    · rw [le_div_iff₀ positive, lastDigit, ← place, unit]
      exact .inl low
    · unfold leastExponent at place least
      omega
  rw [Rounding.quotient_in_units, ← lastDigit] at near odd
  rw [← div_mul_cancel₀ (num / den : ℚ) positive.ne']
  change Rounds _ (f * 2 ^ 52 + Rounding.nearest _ _)
  generalize Rounding.nearest (num * 2 ^ (-((f : ℤ) - 1074)).toNat)
    (den * 2 ^ ((f : ℤ) - 1074).toNat) = k at near odd ⊢
  refine rounds_of_nearest (by positivity) ?_ ?_ leading near odd
  · have few : (k : ℚ) < 2 ^ 53 + 1 := by linarith [near.1]
    exact Nat.le_of_lt_succ (mod_cast few)
  · refine leading.imp_left fun many => ?_
    have many : (2 : ℚ) ^ 52 < k + 1 := by linarith [near.2]
    exact Nat.le_of_lt_succ (mod_cast many)

end Rounding

end Binary64

end TextArchive.Number
