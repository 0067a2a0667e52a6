import TextArchive.Number.Binary64

/-!
The natural logarithm of a positive double, rounded to a double. It is summed as a series in fixed
point with 192 binary places, far more than decides the rounding in practice.
-/

set_option autoImplicit false
set_option relaxedAutoImplicit false

namespace TextArchive.Number.Logarithm

def one : Int := 2 ^ 192

/-- The odd powers of a small fixed-point number, each divided by its exponent, summed. -/
def oddPowerSum (square : Int) : Nat → Int → Nat → Int
  | 0, _, _ => 0
  | n + 1, power, odd => power / odd + oddPowerSum square n (power * square / one) (odd + 2)

/-- The logarithm of a quotient close to one, in fixed point. -/
def ofQuotient (num den : Nat) : Int :=
  let z := ((num : Int) - den) * one / (num + den)
  2 * oddPowerSum (z * z / one) 64 z 1

def ofTwo : Int := ofQuotient 2 1

/-- The logarithm of a significand times a power of two, in fixed point. -/
def ofParts (m : Nat) (e : Int) : Int :=
  let top := Nat.log2 m
  if 7 * 2 ^ top < 5 * m then ofQuotient m (2 ^ (top + 1)) + (top + 1 + e) * ofTwo
  else ofQuotient m (2 ^ top) + (top + e) * ofTwo

/-- The natural logarithm of a positive finite double. -/
def ln (x : Float) : Float :=
  match Binary64.parts? x with
  | some ⟨false, m, e⟩ =>
    let y := ofParts m e
    Binary64.ofQuotient (y < 0) y.natAbs one.toNat
  | _ => 0.0

end TextArchive.Number.Logarithm
