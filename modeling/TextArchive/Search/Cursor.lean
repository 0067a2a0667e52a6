import TextArchive.Search

/-!
Searching on a connection. A collection has a hidden column of its own name, and if that is the name
of the row numbers, a statement that asks for the number of a row is given the column instead: the
number of the cursor that reads the row. Cursors are numbered on each connection, in the order in
which they are opened. A ranked search has one cursor that finds matches in the order of their
scores and another that looks up the row of each; it then looks up the number of the first cursor.
-/

set_option autoImplicit false
set_option relaxedAutoImplicit false

namespace TextArchive

open TextArchive.Index (Statistics)
open TextArchive.Store (Database Entry Indexing Row StoreError Table)

def Hit.numbered (number : Nat) (h : Hit) : Hit :=
  { h with rowid := number }

namespace Search

def numberName : String := "rowid"

/-- Whether a collection of a name hides the numbers of its rows. -/
def hidesNumbers (collection : String) : Bool :=
  Store.Name.same collection numberName

/-- An answer, with how many cursors the connection has opened by then. Nothing shows the cursors of
a collection that does not hide its numbers, and they are not counted. -/
structure Answered where
  hits : Except StoreError (List Hit)
  opened : Nat

/-- What is shown of a match when some row is read in its place. -/
def misread (indexing : Indexing) (weights : List Float) (s : Statistics) (e : Query.Expr)
    (row : Row) (r : Ranked) :
    Except StoreError Hit :=
  let size := (Entry.ofRow indexing.tokenizer row).document.size
  hit indexing.tokenizer e ⟨row, r.positions, Index.Score.score weights s size r.positions⟩

/-- How many cursors the score of a row takes: one for each phrase, if it is asked for. -/
def scoreCursors (e : Query.Expr) : List (Except StoreError Hit) → Nat
  | .error .malformedCollection :: _ => 0
  | [] => 0
  | _ => e.phrases.length

/-- A ranked search of a collection that hides its numbers, when so many cursors have been
opened. -/
def rankHidden (opened : Nat) (indexing : Indexing) (rows : List Row) (text : List Char)
    (limit : Nat) :
    Answered :=
  match expression indexing.tokenizer text with
  | .error e => ⟨.error (.query e), opened + 1⟩
  | .ok e =>
    let weights := (indexing.rank.map Index.RankExpression.weights).getD []
    let sorted := (ranked indexing weights e rows).mergeSort Ranked.le
    if sorted.isEmpty then ⟨.ok [], opened + 2⟩
    else
      let scored := opened + 2 + e.phrases.length
      match rows.find? fun r => r.rowid = opened + 2 with
      | none => ⟨.error .malformedCollection, scored⟩
      | some row =>
        if row.isLive then
          let shown := (sorted.take limit).map
            (misread indexing weights (statistics indexing e) e row)
          ⟨(shown.mapM id).map (List.map (Hit.numbered (opened + 1))),
            scored + scoreCursors e shown⟩
        else ⟨.ok [], scored⟩

/-- A search of a collection that hides its numbers, when so many cursors have been opened. -/
def searchHidden (opened : Nat) (indexing : Indexing) (t : Table) (text : List Char) (limit : Nat) :
    Answered :=
  if text.isEmpty then ⟨.ok ((listing t limit).map (Hit.numbered (opened + 1))), opened + 1⟩
  else rankHidden opened indexing t.rows text limit

end Search

/-- Search a collection on a connection that has opened so many cursors; the result says how many it
has opened when the search is done. -/
def searchAfter (opened : Nat) (db : Database) (collection text : String) (topK : Nat) :
    Except SearchError (List Hit) × Nat :=
  match Search.hidesNumbers collection, db.find? collection with
  | true, some (.table ⟨name, .indexed indexing, rows⟩) =>
    if topK = 0 then (.error .zeroHits, opened)
    else
      let a := Search.searchHidden opened indexing ⟨name, .indexed indexing,
        rows⟩ (Text.trim text.toList)
        (min topK Search.greatestLimit)
      (a.hits.mapError .query, a.opened)
  | _, _ => (Search.answer db collection text topK, opened)

/-- Whether a collection of a name hides the numbers of its rows. -/
def Search.isHidden (db : Database) (collection : String) : Bool :=
  match hidesNumbers collection, db.find? collection with
  | true, some (.table ⟨_, .indexed _, _⟩) => true
  | _, _ => false

/-- The rows of a collection as a statement on a connection reads them. -/
def rowsAfter (opened : Nat) (db : Database) (collection : String) :
    Except StoreError (List Row) × Nat :=
  if Search.isHidden db collection then
    ((db.rows collection).map (List.map fun r => { r with rowid := opened + 1 }), opened + 1)
  else (db.rows collection, opened)

def countAfter (opened : Nat) (db : Database) (collection : String) : Except StoreError Nat × Nat :=
  (db.count collection, if Search.isHidden db collection then opened + 1 else opened)

/-- Set the deletion time of the rows of a title on a connection. -/
def softDeleteAfter (opened : Nat) (db : Database) (collection title : String)
    (time : Option String) :
    Except StoreError (Nat × Database) × Nat :=
  (db.softDelete collection title time,
    if Search.isHidden db collection then opened + 1 else opened)

end TextArchive
