import TextArchive.Text.Utf8

/-!
Query expressions: phrases of terms, groups of phrases that stand near each other, and their
combinations.
-/

set_option autoImplicit false
set_option relaxedAutoImplicit false

namespace TextArchive.Query

open TextArchive.Text.Utf8 (Bytes)

/-- A term of a phrase; one that is open stands for every word that starts with it. -/
structure Term where
  text : Bytes
  isOpen : Bool
deriving DecidableEq, Repr

/-- Terms that follow each other in one column, at its very start if the phrase is leading. -/
structure Phrase where
  terms : List Term
  leading : Bool
deriving DecidableEq, Repr

/-- Phrases that stand near each other, in one of some columns if these are given. -/
structure Group where
  phrases : List Phrase
  distance : Int
  columns : Option (List Nat)
  /-- Whether columns have been given more than once with none in common. -/
  isClosed : Bool
deriving DecidableEq, Repr

/-- Whether a group holds a phrase without terms, which nothing matches. -/
def Group.isEmpty (g : Group) : Bool :=
  g.phrases.any (·.terms.isEmpty)

/-- Restrict a group to columns, besides the restriction it may already have. -/
def Group.restrict (g : Group) (columns : List Nat) : Group :=
  match g.columns with
  | none => { g with columns := some columns }
  | some old =>
    let common := old.filter (columns.contains ·)
    { g with columns := some common, isClosed := common.isEmpty }

inductive Expr where
  | group (g : Group)
  | both (left right : Expr)
  | either (left right : Expr)
  | butNot (left right : Expr)
deriving DecidableEq, Repr

namespace Expr

def groups : Expr → List Group
  | .group g => [g]
  | .both l r => l.groups ++ r.groups
  | .either l r => l.groups ++ r.groups
  | .butNot l r => l.groups ++ r.groups

/-- Restrict every group to columns. -/
def restrict (columns : List Nat) : Expr → Expr
  | .group g => .group (g.restrict columns)
  | .both l r => .both (l.restrict columns) (r.restrict columns)
  | .either l r => .either (l.restrict columns) (r.restrict columns)
  | .butNot l r => .butNot (l.restrict columns) (r.restrict columns)

def isBoth : Expr → Bool
  | .both _ _ => true
  | _ => false

def isEither : Expr → Bool
  | .either _ _ => true
  | _ => false

/-- How deep operators are nested; conjunctions of conjunctions and disjunctions of disjunctions
count once. -/
def height : Expr → Nat
  | .group _ => 0
  | .both l r =>
    max (l.height + if l.isBoth then 0 else 1) (r.height + if r.isBoth then 0 else 1)
  | .either l r =>
    max (l.height + if l.isEither then 0 else 1) (r.height + if r.isEither then 0 else 1)
  | .butNot l r => max l.height r.height + 1

/-- The conjunction of groups that follow each other without an operator; empty groups do not count
unless there is no other. -/
def allOf (first : Group) (others : List Group) : Expr :=
  match (first :: others).filter (!·.isEmpty) with
  | [] => .group first
  | g :: gs => gs.foldl (fun e g => .both e (.group g)) (.group g)

end Expr

end TextArchive.Query
