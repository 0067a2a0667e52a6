import TextArchive.Text.CodeRange

/-!
Diacritics: the combining marks that may be left out of a word, and the Latin letters that carry one
or two of them.
-/

set_option autoImplicit false
set_option relaxedAutoImplicit false

namespace TextArchive.Text.Diacritic

def marks : List CodeRange :=
  CodeRange.ofText "300-304 306-30c 30f 311 31b 323-328 32d-32e 330-331"

/-- Whether a code point is a combining mark that may be left out. -/
def isMark (code : Nat) : Bool :=
  CodeRange.holds marks code

/-- Letters with one mark, under the bare letter. -/
def withOneMark : List (Char × List CodeRange) :=
  [
    ('a', "c0-c5 e0-e5 100-105 1cd-1ce 200-203 226-227 1e00-1e01 1ea0-1ea3"),
    ('b', "1e02-1e07"),
    ('c', "c7 e7 106-10d"),
    ('d', "10e-10f 1e0a-1e13"),
    ('e', "c8-cb e8-eb 112-11b 204-207 228-229 1e18-1e1b 1eb8-1ebd"),
    ('f', "1e1e-1e1f"),
    ('g', "11c-123 1e6-1e7 1f4-1f5 1e20-1e21"),
    ('h', "124-125 21e-21f 1e22-1e2b 1e96"),
    ('i', "cc-cf ec-ef 128-130 1cf-1d0 208-20b 1e2c-1e2d 1ec8-1ecb"),
    ('j', "134-135 1f0"),
    ('k', "136-137 1e8-1e9 1e30-1e35"),
    ('l', "139-13e 1e36-1e37 1e3a-1e3d"),
    ('m', "1e3e-1e43"),
    ('n', "d1 f1 143-148 1f8-1f9 1e44-1e4b"),
    ('o', "d2-d6 f2-f6 14c-151 1a0-1a1 1d1-1d2 1ea-1eb 20c-20f 22e-22f 1ecc-1ecf"),
    ('p', "1e54-1e57"),
    ('r', "154-159 210-213 1e58-1e5b 1e5e-1e5f"),
    ('s', "15a-161 218-219 1e60-1e63"),
    ('t', "162-165 21a-21b 1e6a-1e71 1e97"),
    ('u', "d9-dc f9-fc 168-173 1af-1b0 1d3-1d4 214-217 1e72-1e77 1ee4-1ee7"),
    ('v', "1e7c-1e7f"),
    ('w', "174-175 1e80-1e89 1e98"),
    ('x', "1e8a-1e8d"),
    ('y', "dd fd ff 176-178 232-233 1e8e-1e8f 1e99 1ef2-1ef9"),
    ('z', "179-17e 1e90-1e95")].map fun entry => (entry.1, CodeRange.ofText entry.2)

/-- Letters with two marks, under the bare letter. -/
def withTwoMarks : List (Char × List CodeRange) :=
  [
    ('a', "1de-1e1 1fa-1fb 1ea4-1eb7"),
    ('c', "1e08-1e09"),
    ('e', "1e14-1e17 1e1c-1e1d 1ebe-1ec7"),
    ('i', "1e2e-1e2f"),
    ('l', "1e38-1e39"),
    ('o', "1ec-1ed 22a-22d 230-231 1e4c-1e53 1ed0-1ee3"),
    ('r', "1e5c-1e5d"),
    ('s', "1e64-1e69"),
    ('u', "1d5-1dc 1e78-1e7b 1ee8-1ef1")].map fun entry => (entry.1, CodeRange.ofText entry.2)

def lookUp (table : List (Char × List CodeRange)) (code : Nat) : Option Char :=
  (table.find? fun entry => CodeRange.holds entry.2 code).map (·.1)

/-- How far diacritics are removed. -/
inductive Removal where
  /-- They stay. -/
  | none
  /-- Letters with one mark lose it, those with two stay. -/
  | single
  /-- Letters lose all marks. -/
  | all
deriving DecidableEq, Repr

/-- A code point after removal; a combining mark leaves nothing. -/
def Removal.apply (removal : Removal) (code : Nat) : Option Nat :=
  match removal with
  | .none => some code
  | .single =>
    if isMark code then Option.none
    else some (((lookUp withOneMark code).map Char.toNat).getD code)
  | .all =>
    if isMark code then Option.none
    else some ((((lookUp withOneMark code).or (lookUp withTwoMarks code)).map Char.toNat).getD code)

end TextArchive.Text.Diacritic
