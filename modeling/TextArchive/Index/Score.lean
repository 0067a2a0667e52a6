import TextArchive.Number.Logarithm
import TextArchive.Query.Match

/-!
The score of a document for a query: for every phrase, how rare it is among all documents times how
often it occurs, damped, and measured against the length of the document. Better documents have
lower scores.
-/

set_option autoImplicit false
set_option relaxedAutoImplicit false

namespace TextArchive.Index

open TextArchive.Number
open TextArchive.Query (Expr)

/-- What scores depend on besides the document: the number of documents, of all their terms, and for
each phrase of the query the number of documents that hold it. -/
structure Statistics where
  documents : Nat
  terms : Nat
  holding : List Nat
deriving DecidableEq, Repr

def Statistics.ofDocuments (documents : List Document) (e : Expr) : Statistics where
  documents := documents.length
  terms := documents.foldl (fun n d => n + d.size) 0
  holding := e.phrases.map fun p =>
    (documents.filter fun d => !(p.1.positions p.2 d).isEmpty).length

namespace Score

/-- How rare a phrase is; at least a millionth, also where it is in half of the documents or
more. -/
def rarity (documents holding : Nat) : Float :=
  let all := Float.ofNat documents
  let held := Float.ofNat holding
  let x := Logarithm.ln ((all - held + 0.5) / (held + 0.5))
  if x ≤ 0.0 then 0.000001 else x

/-- The sum of the weights of places; a column without a weight counts once. -/
def frequency (weights : List Float) (positions : List Position) : Float :=
  positions.foldl (fun sum p => sum + (weights[p.column]?).getD 1.0) 0.0

/-- What a phrase adds, given its frequency and the length of the document relative to the
average. -/
def part (rarity frequency relativeLength : Float) : Float :=
  rarity * ((frequency * 2.2) / (frequency + 1.2 * (0.25 + relativeLength)))

def relativeLength (s : Statistics) (size : Nat) : Float :=
  0.75 * Float.ofNat size / (Float.ofNat s.terms / Float.ofNat s.documents)

def score (weights : List Float) (s : Statistics) (size : Nat) (positions : List (List Position)) :
    Float :=
  let length := relativeLength s size
  let total := (s.holding.zip positions).foldl
    (fun sum p => sum + part (rarity s.documents p.1) (frequency weights p.2) length) 0.0
  total * (-1.0)

end Score

end TextArchive.Index
