import TextArchive.Number.Shortest

/-!
Written forms of doubles: positional and exponential layouts of their shortest digits, and forms
with a fixed number of places.
-/

set_option autoImplicit false
set_option relaxedAutoImplicit false

namespace TextArchive.Number.Layout

def digitsOf (n : Nat) : List Char :=
  Nat.toDigits 10 n

def zeros (n : Nat) : List Char :=
  List.replicate n '0'

/-- Digits with the decimal point after the given number of them, zeros filling the gap on either
side; a whole number gets the given ending. -/
def positional (digits : List Char) (point : Int) (wholeEnding : List Char) : List Char :=
  if point ≤ 0 then '0' :: '.' :: zeros (-point).toNat ++ digits
  else if (digits.length : Int) ≤ point then
    digits ++ zeros (point.toNat - digits.length) ++ wholeEnding
  else digits.take point.toNat ++ '.' :: digits.drop point.toNat

def exponential (digits : List Char) (point : Int) : List Char :=
  let power := (toString (point - 1)).toList
  match digits with
  | [] => []
  | [d] => d :: 'e' :: power
  | d :: ds => d :: '.' :: ds ++ 'e' :: power

/-- How the shortest digits of a double are laid out. -/
structure Style where
  /-- The ending of whole numbers. -/
  wholeEnding : List Char
  /-- Whether a number with this count of places before the point is written positionally. -/
  isPositional : Int → Bool
  infinite : List Char
  undefined : List Char

def sign (negative : Bool) : List Char :=
  if negative then ['-'] else []

def Style.render (style : Style) (x : Float) : List Char :=
  match Binary64.parts? x with
  | none =>
    if Binary64.isNaN x then style.undefined
    else sign (Binary64.signBit ≤ x.toBits.toNat) ++ style.infinite
  | some ⟨negative, 0, _⟩ => sign negative ++ '0' :: style.wholeEnding
  | some ⟨negative, m, e⟩ =>
    let d := Shortest.shortest m e
    let digits := digitsOf d.digits
    let point := (digits.length : Int) + d.exponent
    sign negative ++
      (if style.isPositional point then positional digits point style.wholeEnding
      else exponential digits point)

/-- A significand times a power of two in units of a power of ten, rounded. -/
def inTenths (m : Nat) (e : Int) (places : Int) : Nat :=
  Rounding.nearest (m * 2 ^ e.toNat * 10 ^ places.toNat) (2 ^ (-e).toNat * 10 ^ (-places).toNat)

def fixed (places : Nat) (x : Float) : List Char :=
  match Binary64.parts? x with
  | none =>
    if Binary64.isNaN x then ['N', 'a', 'N']
    else sign (Binary64.signBit ≤ x.toBits.toNat) ++ ['i', 'n', 'f']
  | some ⟨negative, m, e⟩ =>
    let digits := digitsOf (inTenths m e places)
    let padded := zeros (places + 1 - digits.length) ++ digits
    let whole := padded.length - places
    sign negative ++ padded.take whole ++ (if places = 0 then [] else '.' :: padded.drop whole)

/-- A finite double as one digit, a fixed number of places after the point, and a power of ten. -/
def scientific (places : Nat) (x : Float) : List Char :=
  match Binary64.parts? x with
  | none =>
    if Binary64.isNaN x then ['N', 'a', 'N']
    else sign (Binary64.signBit ≤ x.toBits.toNat) ++ ['i', 'n', 'f']
  | some ⟨negative, 0, _⟩ =>
    sign negative ++ '0' :: (if places = 0 then [] else '.' :: zeros places) ++ ['e', '0']
  | some ⟨negative, m, e⟩ =>
    let leading := Shortest.leadingExponent (Shortest.quarters (4 * m) e)
    let rounded := inTenths m e (places - leading)
    let carried := 10 ^ (places + 1) ≤ rounded
    let digits := digitsOf (if carried then rounded / 10 else rounded)
    let power := if carried then leading + 1 else leading
    sign negative ++ digits.take 1 ++ (if places = 0 then [] else '.' :: digits.drop 1)
      ++ 'e' :: (toString power).toList

end TextArchive.Number.Layout
