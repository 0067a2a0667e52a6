import TextArchive.Number.Binary64

/-!
Decimal literals: a sign, digits with at most one point, and a power of ten; and the names of the
infinite and the undefined value. A literal stands for the double nearest to it.
-/

set_option autoImplicit false
set_option relaxedAutoImplicit false

namespace TextArchive.Number.Literal

/-- A whole number times a power of ten, with a sign. -/
structure Scaled where
  negative : Bool
  digits : Nat
  exponent : Int
deriving DecidableEq, Repr

def digitValue (c : Char) : Nat :=
  c.toNat - '0'.toNat

def naturalValue (cs : List Char) : Nat :=
  cs.foldl (fun n c => 10 * n + digitValue c) 0

def splitSign : List Char → Bool × List Char
  | '-' :: r => (true, r)
  | '+' :: r => (false, r)
  | r => (false, r)

/-- The power of ten that follows the digits: nothing, or a mark, an optional sign and digits. -/
def exponent? : List Char → Option Int
  | [] => some 0
  | c :: r =>
    if c = 'e' || c = 'E' then
      let (negative, digits) := splitSign r
      if digits.isEmpty || !digits.all Char.isDigit then none
      else
        let n : Int := naturalValue digits
        some (if negative then -n else n)
    else none

/-- Digits with at most one point and at least one digit, then the power of ten. -/
def magnitude? (cs : List Char) : Option (Nat × Int) :=
  let whole := cs.takeWhile Char.isDigit
  let rest := cs.dropWhile Char.isDigit
  let (fraction, rest) : List Char × List Char :=
    match rest with
    | '.' :: r => (r.takeWhile Char.isDigit, r.dropWhile Char.isDigit)
    | r => ([], r)
  if whole.isEmpty && fraction.isEmpty then none
  else (exponent? rest).map fun e => (naturalValue (whole ++ fraction), e - fraction.length)

/-- The double nearest to a whole number times a power of ten. Powers that leave the range of
doubles are not computed. -/
def Scaled.toFloat (s : Scaled) : Float :=
  if s.digits = 0 then Binary64.ofQuotient s.negative 0 1
  else
    let leading := (Nat.toDigits 10 s.digits).length + s.exponent
    if 400 < leading then Binary64.ofSignAndBits s.negative Binary64.infinityBits
    else if leading < -400 then Binary64.ofQuotient s.negative 0 1
    else Binary64.ofQuotient s.negative (s.digits * 10 ^ s.exponent.toNat)
      (10 ^ (-s.exponent).toNat)

def undefined : Float :=
  Float.ofBits 0x7FF8000000000000

def isWord (cs : List Char) (word : String) : Bool :=
  cs.map Char.toLower == word.toList

/-- The double that a literal stands for. -/
def parse? (cs : List Char) : Option Float :=
  let (negative, rest) := splitSign cs
  if isWord rest "inf" || isWord rest "infinity" then
    some (Binary64.ofSignAndBits negative Binary64.infinityBits)
  else if isWord rest "nan" then some undefined
  else (magnitude? rest).map fun m => (Scaled.mk negative m.1 m.2).toFloat

end TextArchive.Number.Literal
