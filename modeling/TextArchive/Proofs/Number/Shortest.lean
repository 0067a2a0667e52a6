import TextArchive.Number.Shortest
import TextArchive.Proofs.Number.Nearest

/-!
The shortest decimal of a double is rounded to this double. Decimals and quotients are compared as
the numbers that they stand for; the ends of the interval that is searched are the middles between
the double and its neighbours.
-/

set_option autoImplicit false
set_option relaxedAutoImplicit false

namespace TextArchive.Number.Shortest

open Binary64

section Values

def Decimal.value (d : Decimal) : ℚ :=
  d.digits * 10 ^ d.exponent

def Quotient.value (q : Quotient) : ℚ :=
  q.num / q.den

variable (d : Decimal) (q : Quotient)

private theorem Decimal.le_iff (positive : 0 < q.den) : d.le q = true ↔ d.value ≤ q.value := by
  rw [value, mul_ten_zpow, Quotient.value, div_le_div_iff₀ (by positivity) (by positivity)]
  exact decide_eq_true_iff.trans (by norm_cast)

private theorem Decimal.ge_iff (positive : 0 < q.den) : d.ge q = true ↔ q.value ≤ d.value := by
  rw [value, mul_ten_zpow, Quotient.value, div_le_div_iff₀ (by positivity) (by positivity)]
  exact decide_eq_true_iff.trans (by norm_cast)

private theorem quarters_den_pos (count : ℕ) (e : ℤ) : 0 < (quarters count e).den :=
  Nat.mul_pos (by decide) (Nat.two_pow_pos _)

private theorem value_quarters (count : ℕ) (e : ℤ) :
    (quarters count e).value = count / 4 * 2 ^ e := by
  rw [Quotient.value, quarters, ← pow_toNat_div two_ne_zero]
  push_cast
  rw [mul_div_mul_comm]

private theorem Decimal.value_stripZeros : d.stripZeros.value = d.value := by
  induction d using Decimal.stripZeros.induct with
  | case1 d zero =>
    rw [stripZeros, if_pos zero]
    simp [value, zero]
  | case2 d some_digit zero ih =>
    rw [stripZeros, if_neg some_digit, if_pos zero, ih]
    have digits : (d.digits : ℚ) = (d.digits / 10 : ℕ) * 10 := by
      exact_mod_cast (Nat.div_mul_cancel (Nat.dvd_of_mod_eq_zero zero)).symm
    rw [value, value, digits, zpow_add_one₀ (by norm_num)]
    ring
  | case3 d some_digit last =>
    rw [stripZeros, if_neg some_digit, if_neg last]

private theorem value_exact (m : ℕ) (e : ℤ) : (exact m e).value = m * 2 ^ e := by
  unfold exact
  split
  · rename_i small
    obtain ⟨k, rfl⟩ : ∃ k : ℕ, e = -k := ⟨(-e).toNat, by omega⟩
    have ten : (10 : ℚ) ^ k = 2 ^ k * 5 ^ k := by
      rw [← mul_pow]
      norm_num
    simp only [Decimal.value, neg_neg, Int.toNat_natCast, zpow_neg, zpow_natCast, Nat.cast_mul,
      Nat.cast_pow, Nat.cast_ofNat, ten]
    field_simp
  · rename_i large
    obtain ⟨k, rfl⟩ := Int.eq_ofNat_of_zero_le (not_lt.mp large)
    simp [Decimal.value]

end Values

private theorem readsBack_of_onGrid? {m : ℕ} {e place : ℤ} {d : Decimal}
    (found : onGrid? m e place = some d) :
    readsBack m e d = true := by
  simp only [onGrid?] at found
  split at found
  · rename_i below
    split at found
    · rename_i both
      obtain rfl := Option.some.inj found
      exact (Bool.and_eq_true_iff.mp both).1
    · obtain rfl := Option.some.inj found
      exact below
  split at found
  · rename_i above
    obtain rfl := Option.some.inj found
    exact above
  · cases found

section Interval

variable {m f : ℕ} (some_digit : 0 < m) (short : m < 2 ^ 53) (full : 2 ^ 52 ≤ m ∨ f = 0)
include some_digit short full

private theorem value_lowerEnd : 2 * (lowerEnd m (f - 1074)).value =
    numberOfBits (f * 2 ^ 52 + m - 1) + numberOfBits (f * 2 ^ 52 + m) := by
  have least : leastExponent = -1074 := rfl
  rw [lowerEnd, value_quarters, numberOfBits_eq short.le full, ← lastDigit]
  split
  · rename_i power
    simp only [Bool.and_eq_true, decide_eq_true_eq] at power
    obtain ⟨g, rfl⟩ : ∃ g, f = g + 1 := ⟨f - 1, by omega⟩
    rw [power.1, numberOfBits_pred_of_power]
    push_cast
    ring
  · rename_i power
    simp only [Bool.and_eq_true, decide_eq_true_eq] at power
    rw [numberOfBits_pred some_digit short.le (by omega), Nat.cast_sub (by omega)]
    push_cast
    ring

private theorem value_upperEnd : 2 * (upperEnd m (f - 1074)).value =
    numberOfBits (f * 2 ^ 52 + m) + numberOfBits (f * 2 ^ 52 + m + 1) := by
  rw [upperEnd, value_quarters, Nat.add_assoc, numberOfBits_eq short.le full,
    numberOfBits_eq short (by omega), ← lastDigit]
  push_cast
  ring

theorem rounds_of_readsBack {d : Decimal} (back : readsBack m (f - 1074) d = true) :
    Rounds d.value (f * 2 ^ 52 + m) := by
  have parity : (f * 2 ^ 52 + m) % 2 = m % 2 := by omega
  have lower := value_lowerEnd some_digit short full
  have upper := value_upperEnd some_digit short full
  have le_iff (count : ℕ) := d.le_iff _ (quarters_den_pos count (f - 1074))
  have ge_iff (count : ℕ) := d.ge_iff _ (quarters_den_pos count (f - 1074))
  unfold readsBack at back
  unfold lowerEnd at back lower
  unfold upperEnd at back upper
  split at back
  · rw [Bool.and_eq_true, ge_iff, le_iff] at back
    exact ⟨by linarith, by linarith, fun odd => by omega⟩
  · rw [Bool.and_eq_true, Bool.not_eq_true', ← Bool.not_eq_true, Bool.not_eq_true',
      ← Bool.not_eq_true, le_iff, ge_iff, not_le, not_le] at back
    have inside : numberOfBits (f * 2 ^ 52 + m - 1) + numberOfBits (f * 2 ^ 52 + m) < 2 * d.value ∧
        2 * d.value < numberOfBits (f * 2 ^ 52 + m) + numberOfBits (f * 2 ^ 52 + m + 1) :=
      ⟨by linarith, by linarith⟩
    exact ⟨inside.1.le, inside.2.le, fun _ => inside⟩

/-- The shortest decimal of a significand times a power of two is rounded to the bits of both. -/
theorem rounds_shortest : Rounds (shortest m (f - 1074)).value (f * 2 ^ 52 + m) := by
  rw [shortest, Decimal.value_stripZeros]
  cases found : (List.range 17).findSome? _ with
  | some d =>
    obtain ⟨n, -, on_grid⟩ := List.exists_of_findSome?_eq_some found
    exact rounds_of_readsBack some_digit short full (readsBack_of_onGrid? on_grid)
  | none =>
    rw [Option.getD_none, value_exact]
    refine rounds_of_nearest (Nat.cast_nonneg m) short.le full
      (full.imp_left fun digits => mod_cast digits) ?_ ?_
    · exact ⟨by linarith, by linarith⟩
    · exact fun _ => ⟨by linarith, by linarith⟩

end Interval

end TextArchive.Number.Shortest
