import TextArchive.Number.Rounding

/-!
Double-precision numbers as whole multiples of powers of two: taking a finite one apart, the double
nearest to a quotient, and an integer key that orders doubles as their values do.
-/

set_option autoImplicit false
set_option relaxedAutoImplicit false

namespace TextArchive.Number.Binary64

/-- A finite double in parts: a sign and a significand times a power of two. -/
structure Parts where
  negative : Bool
  significand : Nat
  exponent : Int
deriving DecidableEq, Repr

def leastExponent : Int := -1074

def infinityBits : Nat := 0x7FF0000000000000

def signBit : Nat := 0x8000000000000000

/-- The parts of a bit pattern, if it is that of a finite double. -/
def partsOfBits (bits : Nat) : Option Parts :=
  let negative : Bool := signBit ≤ bits
  let field : Nat := bits / 2 ^ 52 % 2048
  let fraction : Nat := bits % 2 ^ 52
  if field = 2047 then none
  else if field = 0 then some ⟨negative, fraction, leastExponent⟩
  else some ⟨negative, 2 ^ 52 + fraction, (field : Int) - 1075⟩

def parts? (x : Float) : Option Parts :=
  partsOfBits x.toBits.toNat

/-- Whether a double is neither infinite nor without a value. -/
def isFinite (x : Float) : Bool :=
  (parts? x).isSome

def isNaN (x : Float) : Bool :=
  infinityBits < x.toBits.toNat % signBit

def ofSignAndBits (negative : Bool) (magnitude : Nat) : Float :=
  Float.ofBits (UInt64.ofNat ((if negative then signBit else 0) + magnitude))

/-- The bits of the double nearest to a quotient, infinity from half a unit past the largest. -/
def magnitudeBits (num den : Nat) : Nat :=
  if num = 0 then 0
  else
    let e := max (Rounding.unitExponent 53 num den) leastExponent
    min ((e - leastExponent).toNat * 2 ^ 52 + Rounding.inUnits num den e) infinityBits

/-- The double nearest to a quotient with a sign; halves go to the even significand. -/
def ofQuotient (negative : Bool) (num den : Nat) : Float :=
  ofSignAndBits negative (magnitudeBits num den)

/-- An integer that grows with the value of a double; both zeros have the same. -/
def orderKey (x : Float) : Int :=
  let bits := x.toBits.toNat
  if signBit ≤ bits then -((bits - signBit : Nat) : Int) else bits

end TextArchive.Number.Binary64
