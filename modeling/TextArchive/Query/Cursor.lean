import TextArchive.Query.Match

/-!
How an expression finds its documents: by cursors that move forward over the documents in order,
each group of phrases over those in which it is met. What is read off when the whole expression
matches is where its phrases stand then, and a cursor may stand at a document for another reason
than that its part of the expression matches there. Loops are bounded by the number of documents,
since every round moves on.
-/

set_option autoImplicit false
set_option relaxedAutoImplicit false

namespace TextArchive.Query

open TextArchive.Index (Document Position)

/-- A document at which a group is met. -/
structure Stop where
  number : Nat
  found : Found
deriving DecidableEq, Repr

def Group.stops (g : Group) (documents : List Document) : List Stop :=
  documents.zipIdx.filterMap fun d => (g.find? d.1).map (⟨d.2, ·⟩)

/-- Cursors for the parts of an expression. One for a group has the stops that are ahead, the first
of which is where it is, and the places it has kept of each phrase. -/
inductive Cursor where
  | group (kept : List (List Position)) (ahead : List Stop)
  | both (left right : Cursor)
  | either (left right : Cursor)
  | butNot (left right : Cursor)
deriving Repr

namespace Cursor

/-- Where a cursor is and whether its part of the expression matches there; nothing at the end. -/
def now? : Cursor → Option (Nat × Bool)
  | .group _ ahead => ahead.head?.map fun s => (s.number, s.found.matched)
  | .both l r =>
    match l.now?, r.now? with
    | some (n, a), some (_, b) => some (n, a && b)
    | _, _ => none
  | .either l r =>
    match l.now?, r.now? with
    | none, there => there
    | there, none => there
    | some (m, a), some (n, b) =>
      if m < n then some (m, a) else if n < m then some (n, b) else some (m, a || b)
  | .butNot l _ => l.now?

def place? (c : Cursor) : Option Nat := c.now?.map (·.1)

def close : Cursor → Cursor
  | .group kept _ => .group kept []
  | .both l r => .both l.close r.close
  | .either l r => .either l.close r.close
  | .butNot l r => .butNot l.close r.close

/-- Give up the places that have been kept. -/
def clear : Cursor → Cursor
  | .group kept ahead => .group (kept.map fun _ => []) ahead
  | .both l r => .both l.clear r.clear
  | .either l r => .either l.clear r.clear
  | .butNot l r => .butNot l.clear r.clear

/-- The places of each phrase in a document: those kept by the groups that are there. -/
def placesAt (number : Nat) : Cursor → List (List Position)
  | .group kept ahead => if ahead.head?.map (·.number) = some number then kept else kept.map fun _ => []
  | .both l r => l.placesAt number ++ r.placesAt number
  | .either l r => l.placesAt number ++ r.placesAt number
  | .butNot l r => l.placesAt number ++ r.placesAt number

/-- A cursor of a group that comes to a stop. Only the phrases that have been looked for there have
new places. -/
def arrive (kept : List (List Position)) : List Stop → Cursor
  | [] => .group kept []
  | s :: ahead => .group (s.found.places ++ kept.drop s.found.places.length) (s :: ahead)

/-- A way to move a cursor to a document or beyond, which tells where it is then. -/
abbrev Move := Nat → Cursor → Option Nat × Cursor

/-- Move one part, and the other one to where the first one is then. -/
def Move.chain (left right : Move) : Move
  | bound, .both l r =>
    match left bound l with
    | (none, l) => (none, .both l r)
    | (some there, l) =>
      let (there, r) := right there r
      (there, .both l r)
  | _, c => (none, c)

/-- Move the parts of a conjunction until all are at one document. A match is looked for in all of
them, and without one their places do not count, unless nothing is around the conjunction. -/
def settle (round : Move) (isWhole : Bool) : Nat → Move
  | 0, _, c => (none, c.close)
  | n + 1, bound, c =>
    match round bound c with
    | (none, c) => (none, c.close)
    | (some there, c) =>
      if there = bound then
        (some there, if !isWhole && !(c.now?.any (·.2)) then c.clear else c)
      else settle round isWhole n there c

/-- Move the main part of an exclusion over the documents that the other part matches. -/
def exclude (left right : Move) : Nat → Cursor → Cursor → Option Nat × Cursor
  | 0, l, r => (none, .butNot l.close r)
  | n + 1, l, r =>
    match l.place? with
    | none => (none, .butNot l r.clear)
    | some there =>
      let r := (right there r).2
      if r.now? = some (there, true) then exclude left right n (left (there + 1) l).2 r
      else (some there, .butNot l r)

end Cursor

/-- Where a part of an expression stands: conjunctions of conjunctions and disjunctions of
disjunctions are one. -/
inductive Standing where
  | whole
  | conjunct
  | disjunct
  | other
deriving DecidableEq, Repr

namespace Expr

open Cursor

/-- Move the cursor of an expression to a document or beyond. -/
def seek (rounds : Nat) : Standing → Expr → Move
  | _, .group _, bound, .group kept ahead =>
    let c :=
      if ahead.head?.any (·.number < bound) then arrive kept (ahead.dropWhile (·.number < bound))
      else .group kept ahead
    (c.place?, c)
  | standing, .both l r, bound, c =>
    let round := Move.chain (seek rounds .conjunct l) (seek rounds .conjunct r)
    if standing = .conjunct then round bound c
    else if c.place?.all (bound ≤ ·) then (c.place?, c)
    else settle round (standing = .whole) rounds bound c
  | _, .either l r, bound, .either cl cr =>
    let c := Cursor.either (seek rounds .disjunct l bound cl).2 (seek rounds .disjunct r bound cr).2
    (c.place?, c)
  | _, .butNot l r, bound, .butNot cl cr =>
    if cl.place?.all (bound ≤ ·) then (cl.place?, .butNot cl cr)
    else exclude (seek rounds .other l) (seek rounds .other r) rounds
      (seek rounds .other l bound cl).2 cr
  | _, _, _, c => (none, c)

/-- The cursor of an expression at the first document in which it is met. -/
def start (documents : List Document) : Standing → Expr → Cursor
  | _, .group g => arrive (g.phrases.map fun _ => []) (g.stops documents)
  | standing, .both l r =>
    let c := Cursor.both (start documents .conjunct l) (start documents .conjunct r)
    if standing = .conjunct then c
    else
      let rounds := documents.length + 1
      (settle (Move.chain (seek rounds .conjunct l) (seek rounds .conjunct r)) (standing = .whole) rounds 0 c).2
  | standing, .either l r =>
    let c := Cursor.either (start documents .disjunct l) (start documents .disjunct r)
    if standing ≠ .disjunct ∧ c.place? = none then c.close else c
  | _, .butNot l r =>
    let main := start documents .other l
    let other := start documents .other r
    -- what is excluded stays where it is if there is nothing to exclude it from
    if main.place? = none then .butNot main other
    else
      let rounds := documents.length + 1
      (exclude (seek rounds .other l) (seek rounds .other r) rounds main other).2

/-- The documents that match from where a cursor is, with the places of each phrase. -/
def findFrom (e : Expr) (rounds : Nat) : Nat → Cursor → List (Nat × List (List Position))
  | 0, _ => []
  | n + 1, c =>
    match c.now? with
    | none => []
    | some (there, matched) =>
      let rest := findFrom e rounds n (e.seek rounds .whole (there + 1) c).2
      if matched then (there, c.placesAt there) :: rest else rest

/-- The numbers of the documents that an expression matches, in order, with the places of each
phrase. -/
def findIn (e : Expr) (documents : List Document) : List (Nat × List (List Position)) :=
  let rounds := documents.length + 1
  e.findFrom rounds rounds (e.start documents .whole)

end Expr

end TextArchive.Query
