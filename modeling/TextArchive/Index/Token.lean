import TextArchive.Text.Utf8

/-!
Tokens of a text: the term under which a piece of the text is found, and where the piece stands.
-/

set_option autoImplicit false
set_option relaxedAutoImplicit false

namespace TextArchive.Index

open TextArchive.Text.Utf8 (Bytes)

/-- A term with the places, in characters, where its piece of the text starts and ends. -/
structure Token where
  term : Bytes
  start : Nat
  stop : Nat
deriving DecidableEq, Repr

/-- Longer terms are cut to this many bytes. -/
def longestTerm : Nat := 32768

def Token.kept (t : Token) : Bytes :=
  t.term.take longestTerm

def placed (start : Nat) : List Char → List (Nat × Char)
  | [] => []
  | c :: r => (start, c) :: placed (start + 1) r

/-- The code point that counts for a character; the last two of the first plane count as the
replacement character. -/
def codeOf (c : Char) : Nat :=
  if c.toNat = 0xFFFE || c.toNat = 0xFFFF then 0xFFFD else c.toNat

end TextArchive.Index
