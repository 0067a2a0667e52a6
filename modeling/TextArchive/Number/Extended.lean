import TextArchive.Number.Binary64
import TextArchive.Number.Literal

/-!
Reading the decimal numbers of a rank expression. At most nineteen digits or so are kept; they are
scaled by powers of ten in numbers with a significand of 64 bits, each product rounded, and the
result is rounded to a double. A literal can therefore differ in its last place from the double
nearest to it.
-/

set_option autoImplicit false
set_option relaxedAutoImplicit false

namespace TextArchive.Number.Extended

/-- A significand times a power of two. -/
structure Wide where
  significand : Nat
  exponent : Int

/-- A positive quotient rounded to 64 significant bits. -/
def Wide.ofQuotient (num den : Nat) : Wide :=
  let e := Rounding.unitExponent 64 num den
  ⟨Rounding.inUnits num den e, e⟩

def Wide.mul (a b : Wide) : Wide :=
  let p := Wide.ofQuotient (a.significand * b.significand) 1
  ⟨p.significand, p.exponent + a.exponent + b.exponent⟩

def powerOfTen (exponent : Int) : Wide :=
  Wide.ofQuotient (10 ^ exponent.toNat) (10 ^ (-exponent).toNat)

def Wide.mulTimes (a b : Wide) : Nat → Wide
  | 0 => a
  | n + 1 => (a.mul b).mulTimes b n

/-- Scale by a power of ten: by hundreds of places, then tens, then single ones. -/
def Wide.scale (a : Wide) (exponent : Int) : Wide :=
  let n := exponent.natAbs
  let unit : Int := if exponent < 0 then -1 else 1
  ((a.mulTimes (powerOfTen (100 * unit)) (n / 100)).mulTimes (powerOfTen (10 * unit)) (n % 100 / 10)).mulTimes
    (powerOfTen unit) (n % 10)

/-- The nearest double; infinity for all that is past the largest. -/
def Wide.toFloat (a : Wide) : Float :=
  if (2 ^ 53 - 1) * 2 ^ 971 * 2 ^ (-a.exponent).toNat < a.significand * 2 ^ a.exponent.toNat then
    Binary64.ofSignAndBits false Binary64.infinityBits
  else
    Binary64.ofQuotient false (a.significand * 2 ^ a.exponent.toNat) (2 ^ (-a.exponent).toNat)

/-- Past this value no further digit is kept. -/
def fullSignificand : Nat := (2 ^ 64 - 1 - 9) / 10

/-- The kept significand of a literal and the places by which it has to be moved. -/
structure Kept where
  significand : Nat
  places : Int

def Kept.wholeDigit (k : Kept) (c : Char) : Kept :=
  if fullSignificand ≤ k.significand then { k with places := k.places + 1 }
  else { k with significand := 10 * k.significand + Literal.digitValue c }

def Kept.fractionDigit (k : Kept) (c : Char) : Kept :=
  if fullSignificand ≤ k.significand then k
  else ⟨10 * k.significand + Literal.digitValue c, k.places - 1⟩

/-- Move places into the significand while it has room. -/
def Kept.raise (k : Kept) : Nat → Kept
  | 0 => k
  | n + 1 =>
    if 0 < k.places && k.significand < (2 ^ 64 - 1) / 10 then
      Kept.raise ⟨10 * k.significand, k.places - 1⟩ n
    else k

/-- Move places out of the significand while it ends in zeros. -/
def Kept.lower (k : Kept) : Nat → Kept
  | 0 => k
  | n + 1 =>
    if k.places < 0 && k.significand % 10 = 0 then
      Kept.lower ⟨k.significand / 10, k.places + 1⟩ n
    else k

/-- The double that digits with a point stand for in a rank expression. -/
def ofDecimal (whole fraction : List Char) : Float :=
  let k := fraction.foldl Kept.fractionDigit (whole.foldl Kept.wholeDigit ⟨0, 0⟩)
  if k.significand = 0 then Binary64.ofQuotient false 0 1
  else
    let k := (k.raise 20).lower 20
    if k.places = 0 then Binary64.ofQuotient false k.significand 1
    else ((Wide.ofQuotient k.significand 1).scale k.places).toFloat

end TextArchive.Number.Extended
