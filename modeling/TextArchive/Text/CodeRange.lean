import TextArchive.Text.Split

/-!
Sets of code points written as texts of hexadecimal ranges such as `41-5a c0`.
-/

set_option autoImplicit false
set_option relaxedAutoImplicit false

namespace TextArchive.Text

structure CodeRange where
  first : Nat
  last : Nat
deriving DecidableEq, Repr

namespace CodeRange

def covers (r : CodeRange) (code : Nat) : Bool :=
  r.first ≤ code && code ≤ r.last

/-- The value of a lower-case hexadecimal digit; any other character counts as zero. -/
def digit (c : Char) : Nat :=
  if '0' ≤ c && c ≤ '9' then c.toNat - '0'.toNat
  else if 'a' ≤ c && c ≤ 'f' then c.toNat - 'a'.toNat + 10
  else 0

def value (digits : List Char) : Nat :=
  digits.foldl (fun n c => 16 * n + digit c) 0

/-- The range that a word spells: two ends with a hyphen between, or a single code point. -/
def ofWord (word : List Char) : CodeRange :=
  match Split.pieces (· = '-') word with
  | [first, last] => ⟨value first, value last⟩
  | _ => ⟨value word, value word⟩

def ofText (s : String) : List CodeRange :=
  (Split.words (fun c => c = ' ' || c = '\n') s.toList).map ofWord

def holds (rs : List CodeRange) (code : Nat) : Bool :=
  rs.any (·.covers code)

end CodeRange

end TextArchive.Text
