import TextArchive.Index.Tokenizer

/-!
Indexed texts: the terms of each column of a row, in order.
-/

set_option autoImplicit false
set_option relaxedAutoImplicit false

namespace TextArchive.Index

open TextArchive.Text.Utf8 (Bytes)

/-- A place of a term: its column, and how many terms of the column stand before it. -/
structure Position where
  column : Nat
  offset : Nat
deriving DecidableEq, Repr

/-- One number for a place; places of different columns are far apart. -/
def Position.linear (p : Position) : Int :=
  (p.column : Int) * 0x100000000 + p.offset

def Position.ofLinear (n : Int) : Position :=
  ⟨n.toNat / 0x100000000, n.toNat % 0x100000000⟩

structure Document where
  columns : List (List Bytes)
deriving DecidableEq, Repr

namespace Document

def ofTexts (tokenizer : Tokenizer) (texts : List (List Char)) : Document :=
  ⟨texts.map tokenizer.terms⟩

def size (d : Document) : Nat :=
  d.columns.flatten.length

end Document

end TextArchive.Index
