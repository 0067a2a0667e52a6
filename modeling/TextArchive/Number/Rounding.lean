/-!
Rounding quotients to whole multiples of a power of two, halves to the even neighbour.
-/

set_option autoImplicit false
set_option relaxedAutoImplicit false

-- Powers are the core library's also where other instances are in reach.
attribute [default_instance 20000, instance (2000)] instPowNat

namespace TextArchive.Number.Rounding

/-- The natural number nearest to a quotient; a half goes to the even neighbour. -/
def nearest (num den : Nat) : Nat :=
  let q := num / den
  let r := num % den
  if den < 2 * r || (2 * r = den && q % 2 = 1) then q + 1 else q

theorem nearest_le (num den : Nat) (hd : 0 < den) :
    2 * (nearest num den * den) ≤ 2 * num + den := by
  have hm := Nat.div_add_mod num den
  have hr := Nat.mod_lt num hd
  have hc : den * (num / den) = num / den * den := Nat.mul_comm _ _
  simp only [nearest]
  split
  · rename_i h
    simp only [Bool.or_eq_true, decide_eq_true_eq, Bool.and_eq_true] at h
    rw [Nat.add_mul]
    omega
  · omega

theorem le_nearest (num den : Nat) (hd : 0 < den) :
    2 * num ≤ 2 * (nearest num den * den) + den := by
  have hm := Nat.div_add_mod num den
  have hr := Nat.mod_lt num hd
  have hc : den * (num / den) = num / den * den := Nat.mul_comm _ _
  simp only [nearest]
  split
  · rw [Nat.add_mul]
    omega
  · rename_i h
    simp only [Bool.or_eq_true, decide_eq_true_eq, Bool.and_eq_true, not_or] at h
    omega

/-- A quotient in units of a power of two, rounded. -/
def inUnits (num den : Nat) (exponent : Int) : Nat :=
  nearest (num * 2 ^ (-exponent).toNat) (den * 2 ^ exponent.toNat)

/-- The exponent of the unit in which a positive quotient has the given number of binary digits
before the point. -/
def unitExponent (precision num den : Nat) : Int :=
  let e : Int := (Nat.log2 num : Int) - Nat.log2 den - precision + 1
  if num * 2 ^ (-e).toNat / (den * 2 ^ e.toNat) < 2 ^ (precision - 1) then e - 1 else e

end TextArchive.Number.Rounding
