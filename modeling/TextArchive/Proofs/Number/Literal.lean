import TextArchive.Number.Layout
import TextArchive.Number.Literal
import TextArchive.Proofs.Number.Value

/-!
The double that a literal stands for is the one that its number is rounded to. Where the first digit
leaves the range of doubles the number is not computed, and the same double comes out.
-/

set_option autoImplicit false
set_option relaxedAutoImplicit false

namespace TextArchive.Number.Literal

open Binary64

theorem naturalValue_padded (n before after : ℕ) :
    naturalValue (Layout.zeros before ++ Layout.digitsOf n ++ Layout.zeros after) =
      10 ^ after * n := by
  show Nat.ofDigitChars 10
    (List.replicate before '0' ++ Nat.toDigits 10 n ++ List.replicate after '0') 0 = _
  simp only [Nat.ofDigitChars_append, Nat.ofDigitChars_replicate_zero, Nat.mul_zero,
    Nat.ofDigitChars_ten_toDigits]

private theorem two_pow_le_ten_pow (n : ℕ) : (2 : ℚ) ^ (3 * n) ≤ 10 ^ n := by
  rw [pow_mul]
  exact pow_le_pow_left₀ (by norm_num) (by norm_num) n

namespace Scaled

def size (s : Scaled) : ℚ :=
  s.digits * 10 ^ s.exponent

variable {s : Scaled}

theorem size_nonneg (s : Scaled) : 0 ≤ s.size := by
  unfold size
  positivity

/-- The power of ten above a number. -/
def leading (s : Scaled) : ℤ :=
  (Nat.toDigits 10 s.digits).length + s.exponent

private theorem size_lt (s : Scaled) : s.size < 10 ^ s.leading := by
  have digits : s.digits < 10 ^ (Nat.toDigits 10 s.digits).length :=
    (Nat.length_toDigits_le_iff (by decide) Nat.length_toDigits_pos).mp le_rfl
  rw [size, leading, zpow_add₀ (by norm_num), zpow_natCast]
  exact mul_lt_mul_of_pos_right (mod_cast digits) (by positivity)

private theorem le_size (some_digit : s.digits ≠ 0) : 10 ^ (s.leading - 1) ≤ s.size := by
  have filled : 0 < (Nat.toDigits 10 s.digits).length := Nat.length_toDigits_pos
  have digits : 10 ^ ((Nat.toDigits 10 s.digits).length - 1) ≤ s.digits := by
    rcases Nat.eq_zero_or_pos ((Nat.toDigits 10 s.digits).length - 1) with one | more
    · rw [one]
      exact Nat.pos_of_ne_zero some_digit
    · by_contra fewer
      have short := (Nat.length_toDigits_le_iff (by decide) more).mpr (Nat.lt_of_not_le fewer)
      omega
  have place : s.leading - 1 = ((Nat.toDigits 10 s.digits).length - 1 : ℕ) + s.exponent := by
    unfold leading
    omega
  rw [size, place, zpow_add₀ (by norm_num), zpow_natCast]
  exact mul_le_mul_of_nonneg_right (mod_cast digits) (by positivity)

private theorem leading_le (some_digit : s.digits ≠ 0) (below : s.size < 2 ^ 1024) :
    s.leading ≤ 400 := by
  by_contra great
  refine absurd below (not_lt.mpr ?_)
  calc
    (2 : ℚ) ^ 1024 ≤ 2 ^ (3 * 400) := pow_le_pow_right₀ one_le_two (by norm_num)
    _ ≤ 10 ^ 400 := two_pow_le_ten_pow 400
    _ = 10 ^ (400 : ℤ) := (zpow_natCast _ 400).symm
    _ ≤ 10 ^ (s.leading - 1) := zpow_le_zpow_right₀ (by norm_num) (by omega)
    _ ≤ s.size := le_size some_digit

private theorem rounds_zero (small : s.leading < -400) : Rounds s.size 0 := by
  have least : numberOfBits 1 = 2 ^ (-1074 : ℤ) := by
    have number := numberOfBits_eq (m := 1) (f := 0) (by omega) (by omega)
    simpa [lastDigit] using number
  have below : 2 * s.size ≤ numberOfBits 1 := by
    calc
      2 * s.size ≤ 2 * 10 ^ s.leading := by
        gcongr
        exact (size_lt s).le
      _ ≤ 2 * 10 ^ (-400 : ℤ) := by
        gcongr
        norm_num
      _ ≤ 2 * 2 ^ (-1200 : ℤ) := by
        have power := two_pow_le_ten_pow 400
        rw [← zpow_natCast, ← zpow_natCast] at power
        rw [zpow_neg, zpow_neg]
        gcongr
        exact power
      _ = 2 ^ (-1199 : ℤ) := by
        rw [← zpow_one_add₀ two_ne_zero]
        norm_num
      _ ≤ 2 ^ (-1074 : ℤ) := zpow_le_zpow_right₀ one_le_two (by norm_num)
      _ = numberOfBits 1 := least.symm
  exact rounds_zero_iff.mpr ⟨size_nonneg s, below⟩

private theorem rounds_of_no_digit (none_left : s.digits = 0) : Rounds s.size 0 := by
  refine rounds_zero_iff.mpr ⟨size_nonneg s, ?_⟩
  simpa [size, none_left] using numberOfBits_nonneg 1

private theorem exists_rounds_of_digits (some_digit : s.digits ≠ 0) :
    ∃ n, magnitudeBits (s.digits * 10 ^ s.exponent.toNat)
    (10 ^ (-s.exponent).toNat) = min n infinityBits ∧
      Rounds s.size n := by
  have some_part : 0 < s.digits * 10 ^ s.exponent.toNat :=
    Nat.mul_pos (Nat.pos_of_ne_zero some_digit) (Nat.pow_pos (by decide))
  have some_divisor : 0 < 10 ^ (-s.exponent).toNat := Nat.pow_pos (by decide)
  rw [size, mul_ten_zpow]
  exact exists_rounds_magnitudeBits some_part some_divisor

theorem exists_rounds (s : Scaled) : ∃ n, Rounds s.size n := by
  by_cases none_left : s.digits = 0
  · exact ⟨0, rounds_of_no_digit none_left⟩
  · obtain ⟨n, -, rounds⟩ := exists_rounds_of_digits none_left
    exact ⟨n, rounds⟩

/-- A literal is read as the double that its number is rounded to, infinity past all of them. -/
theorem toFloat_eq {n : ℕ} (rounds : Rounds s.size n) :
    s.toFloat = ofSignAndBits s.negative (min n infinityBits) := by
  unfold toFloat
  split
  · rename_i none_left
    rw [rounds.unique (rounds_of_no_digit none_left)]
    rfl
  rename_i some_digit
  change (if 400 < s.leading then _ else if s.leading < -400 then _ else _) = _
  split
  · rename_i great
    have past : infinityBits ≤ n := by
      by_contra finite
      have below : s.size < 2 ^ 1024 := (rounds.lt_reach (not_le.mp finite)).trans_le
        (sub_le_self _ (by positivity))
      exact absurd (leading_le some_digit below) (not_le.mpr great)
    rw [min_eq_right past]
  split
  · rename_i small
    rw [rounds.unique (rounds_zero small)]
    rfl
  · obtain ⟨n', bits, rounds'⟩ := exists_rounds_of_digits some_digit
    rw [ofQuotient, bits, rounds.unique rounds']

end Scaled

end TextArchive.Number.Literal
