import TextArchive.Index.Document
import TextArchive.Query.Expr

/-!
Where a group of phrases is found in a document: for each phrase, the places that count. A group may
be met without matching, when all its terms occur but not as asked.
-/

set_option autoImplicit false
set_option relaxedAutoImplicit false

namespace TextArchive.Query

open TextArchive.Index (Document Position)
open TextArchive.Text.Utf8 (Bytes)

def Term.holds (t : Term) (word : Bytes) : Bool :=
  if t.isOpen then t.text.isPrefixOf word else t.text == word

/-- Whether words start with ones that some terms stand for. -/
def Term.allHold : List Term → List Bytes → Bool
  | [], _ => true
  | _ :: _, [] => false
  | t :: ts, w :: ws => t.holds w && allHold ts ws

/-- The columns of a document that count, with their numbers. -/
def admitted (columns : Option (List Nat)) (d : Document) : List (Nat × List Bytes) :=
  (d.columns.zipIdx.map fun p => (p.2, p.1)).filter fun p =>
    match columns with
    | none => true
    | some numbers => numbers.contains p.1

/-- Whether a term occurs. For an open term only the columns that count are looked at. -/
def Term.occurs (t : Term) (columns : Option (List Nat)) (d : Document) : Bool :=
  (admitted (if t.isOpen then columns else none) d).any fun p => p.2.any t.holds

/-- How many words stand before each start of a phrase. -/
def Phrase.starts (p : Phrase) (offset : Nat) : List Bytes → List Nat
  | [] => []
  | w :: ws =>
    let later := if p.leading then [] else p.starts (offset + 1) ws
    if Term.allHold p.terms (w :: ws) then offset :: later else later

/-- The places of a phrase in the columns that count. -/
def Phrase.positions (p : Phrase) (columns : Option (List Nat)) (d : Document) : List Position :=
  if p.terms.isEmpty then []
  else (admitted columns d).flatMap fun c => (p.starts 0 c.2).map fun offset => ⟨c.1, offset⟩

/-- One phrase on the way through its places: the number of its terms, the place it is at, the
places ahead, and the places that are kept, last one first. -/
structure Reader where
  terms : Nat
  current : Int
  ahead : List Int
  kept : List Int

/-- A reader at the first of some places. -/
def Reader.of? (terms : Nat) : List Int → Option Reader
  | [] => none
  | n :: rest => some ⟨terms, n, rest, []⟩

/-- Skip places below a bound; none if all are. -/
def skipBelow (low : Int) (current : Int) : List Int → Option (Int × List Int)
  | [] => if low ≤ current then some (current, []) else none
  | n :: rest => if low ≤ current then some (current, n :: rest) else skipBelow low n rest

/-- One pass over the readers: each that is too far behind the foremost place goes on, and the
foremost place moves. The result says whether all were in reach; none if a reader has ended. -/
def alignOnce (distance : Int) : Int → List Reader → Option (Int × Bool × List Reader)
  | most, [] => some (most, true, [])
  | most, r :: rs =>
    let low := most - r.terms - distance
    if r.current < low || most < r.current then
      match skipBelow low r.current r.ahead with
      | none => none
      | some (current, ahead) =>
        (alignOnce distance (max most current) rs).map fun p =>
          (p.1, false, { r with current, ahead } :: p.2.2)
    else
      (alignOnce distance most rs).map fun p => (p.1, p.2.1, r :: p.2.2)

/-- Pass over the readers until all are in reach of the foremost place. -/
def align (distance : Int) : Nat → Int → List Reader → Option (List Reader)
  | 0, _, _ => none
  | n + 1, most, rs =>
    match alignOnce distance most rs with
    | none => none
    | some (_, true, rs) => some rs
    | some (most, false, rs) => align distance n most rs

/-- Keep the place where a reader is, once. -/
def Reader.keep (r : Reader) : Reader :=
  if r.kept.head? = some r.current then r else { r with kept := r.current :: r.kept }

/-- The place after the current one; beyond all places at the end. -/
def Reader.next (r : Reader) : Int :=
  r.ahead.headD 0x4000000000000000

/-- The number of the first reader whose next place comes first. -/
def firstToGo (rs : List Reader) : Nat :=
  match (rs.map Reader.next).min? with
  | none => 0
  | some least => (rs.findIdx? fun r => r.next = least).getD 0

/-- Move a reader to its next place; none at the end. -/
def Reader.advance? (r : Reader) : Option Reader :=
  match r.ahead with
  | [] => none
  | n :: rest => some { r with current := n, ahead := rest }

/-- The places kept, phrase by phrase, of those that have some other phrase's place in reach. -/
def keepNear (distance : Int) (passes : Nat) : Nat → List Reader → List (List Int)
  | 0, rs => rs.map fun r => r.kept.reverse
  | n + 1, rs =>
    match align distance passes ((rs.head?.map (·.current)).getD 0) rs with
    | none => rs.map fun r => r.kept.reverse
    | some aligned =>
      let kept := aligned.map Reader.keep
      let i := firstToGo kept
      match (kept[i]?).bind Reader.advance? with
      | none => kept.map fun r => r.kept.reverse
      | some r => keepNear distance passes n (kept.set i r)

/-- The places of phrases that stand near each other. -/
def nearPositions (distance : Int) (phrases : List (Nat × List Position)) : List (List Position) :=
  let total := (phrases.flatMap (·.2)).length
  match phrases.mapM fun p => Reader.of? p.1 (p.2.map Position.linear) with
  | none => phrases.map fun _ => []
  | some readers =>
    (keepNear distance (2 * total + 2) (total + 1) readers).map (·.map Position.ofLinear)

/-- What a document gives for a group that is met: whether it matches, and the places of its phrases
up to the first one that has none. -/
structure Found where
  matched : Bool
  places : List (List Position)
deriving DecidableEq, Repr

/-- What a document gives for a group; nothing if some term does not occur. -/
def Group.find? (g : Group) (d : Document) : Option Found :=
  if g.isEmpty || g.isClosed || !g.phrases.all (·.terms.all (·.occurs g.columns d)) then none
  else
    let each := g.phrases.map fun p => p.positions g.columns d
    match each with
    | [positions] => some ⟨!positions.isEmpty, each⟩
    | _ =>
      if each.all (!·.isEmpty) then
        let near := nearPositions g.distance ((g.phrases.map (·.terms.length)).zip each)
        some ⟨near.any (!·.isEmpty), near⟩
      else some ⟨false, each.takeWhile (!·.isEmpty) ++ [[]]⟩

namespace Expr

/-- Whether a document is as an expression asks. -/
def holds (d : Document) : Expr → Bool
  | .group g => (g.find? d).any (·.matched)
  | .both l r => holds d l && holds d r
  | .either l r => holds d l || holds d r
  | .butNot l r => holds d l && !holds d r

/-- The phrases of an expression with the columns that count for them. -/
def phrases (e : Expr) : List (Phrase × Option (List Nat)) :=
  e.groups.flatMap fun g => g.phrases.map fun p => (p, g.columns)

end Expr

end TextArchive.Query
