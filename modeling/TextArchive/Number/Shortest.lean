import TextArchive.Number.Binary64

/-!
The shortest decimal that reads back as a given double. The decimals that read back are those in the
interval of numbers nearer to the double than to its neighbours; for one digit, two digits and so on
the two decimals next to the double are tried, and the first that lies in the interval is taken.
-/

set_option autoImplicit false
set_option relaxedAutoImplicit false

namespace TextArchive.Number.Shortest

structure Decimal where
  digits : Nat
  exponent : Int
deriving DecidableEq, Repr

structure Quotient where
  num : Nat
  den : Nat

def Decimal.le (d : Decimal) (q : Quotient) : Bool :=
  d.digits * 10 ^ d.exponent.toNat * q.den ≤ q.num * 10 ^ (-d.exponent).toNat

def Decimal.ge (d : Decimal) (q : Quotient) : Bool :=
  q.num * 10 ^ (-d.exponent).toNat ≤ d.digits * 10 ^ d.exponent.toNat * q.den

def quarters (count : Nat) (exponent : Int) : Quotient :=
  ⟨count * 2 ^ exponent.toNat, 4 * 2 ^ (-exponent).toNat⟩

/-- The lower end of the interval of a significand and exponent; just above a power of two the
neighbour below is half as far. -/
def lowerEnd (m : Nat) (e : Int) : Quotient :=
  quarters (4 * m - (if m = 2 ^ 52 && Binary64.leastExponent < e then 1 else 2)) e

def upperEnd (m : Nat) (e : Int) : Quotient :=
  quarters (4 * m + 2) e

/-- Whether a decimal reads back as the double; the ends belong to the even significand. -/
def readsBack (m : Nat) (e : Int) (d : Decimal) : Bool :=
  if m % 2 = 0 then d.ge (lowerEnd m e) && d.le (upperEnd m e)
  else !d.le (lowerEnd m e) && !d.ge (upperEnd m e)

/-- The power of ten of the first digit of a positive quotient. -/
def leadingExponent (q : Quotient) : Int :=
  let guess := ((Nat.log2 q.num : Int) - Nat.log2 q.den) * 30103 / 100000
  if (Decimal.mk 1 (guess + 1)).le q then guess + 1
  else if (Decimal.mk 1 guess).le q then guess
  else guess - 1

/-- The decimal on the grid of a power of ten next below a quotient. -/
def gridBelow (q : Quotient) (exponent : Int) : Decimal :=
  ⟨q.num * 10 ^ (-exponent).toNat / (q.den * 10 ^ exponent.toNat), exponent⟩

def Decimal.next (d : Decimal) : Decimal :=
  { d with digits := d.digits + 1 }

/-- Whether a quotient is nearer to the upper of two neighbours on a grid, or halfway to an even
one. -/
def upperIsNearer (q : Quotient) (d : Decimal) : Bool :=
  let middle : Decimal := ⟨2 * d.digits + 1, d.exponent⟩
  let double : Quotient := ⟨2 * q.num, q.den⟩
  !middle.ge double || (middle.le double && d.digits % 2 = 1)

/-- The decimal on the grid of a power of ten that reads back, the nearer one if two do. -/
def onGrid? (m : Nat) (e : Int) (exponent : Int) : Option Decimal :=
  let q := quarters (4 * m) e
  let below := gridBelow q exponent
  let above := below.next
  if readsBack m e below then
    if readsBack m e above && upperIsNearer q below then some above else some below
  else if readsBack m e above then some above
  else none

def exact (m : Nat) (e : Int) : Decimal :=
  if e < 0 then ⟨m * 5 ^ (-e).toNat, e⟩ else ⟨m * 2 ^ e.toNat, 0⟩

/-- Move trailing zeros of the digits into the exponent. -/
def Decimal.stripZeros (d : Decimal) : Decimal :=
  if d.digits = 0 then ⟨0, 0⟩
  else if d.digits % 10 = 0 then Decimal.stripZeros ⟨d.digits / 10, d.exponent + 1⟩
  else d
termination_by d.digits
decreasing_by omega

/-- The shortest decimal that reads back as a positive significand times a power of two. -/
def shortest (m : Nat) (e : Int) : Decimal :=
  let leading := leadingExponent (quarters (4 * m) e)
  let found := (List.range 17).findSome? fun (n : Nat) => onGrid? m e (leading - n)
  (found.getD (exact m e)).stripZeros

end TextArchive.Number.Shortest
