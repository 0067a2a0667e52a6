import TextArchive.Index.Excerpt
import TextArchive.Index.Score
import TextArchive.Query.Cursor
import TextArchive.Store.Database
import TextArchive.Text.Blank

/-!
Searching a collection: the live rows that a query text matches, best first, or all live rows in
order if the text is blank. What matches is looked up in the index, and the rows are read by the
numbers found there. Statistics count all that is indexed, whether live or not.
-/

set_option autoImplicit false
set_option relaxedAutoImplicit false

namespace TextArchive

open TextArchive.Index (ExcerptStyle Position Statistics Tokenizer)
open TextArchive.Number
open TextArchive.Query (Expr QueryError)
open TextArchive.Store (Database Entry Indexing Row StoreError Table)

structure Hit where
  rowid : Nat
  title : String
  sourcePath : String
  tag : String
  snippet : String
  score : Float

inductive SearchError where
  | query (error : StoreError)
  /-- No hit is asked for. -/
  | zeroHits
deriving DecidableEq, Repr

def SearchError.message : SearchError → String
  | .query e => "full-text query failed: " ++ e.message
  | .zeroHits => "search request failed: top_k must be at least 1"

namespace Search

def standardTopK : Nat := 10

/-- The greatest limit that a statement can be given. -/
def greatestLimit : Nat := 2 ^ 63 - 1

/-- The column from which excerpts are taken. -/
def excerptColumn : Nat := 2

/-- Excerpts show sixteen tokens, what is found in brackets. -/
def excerptStyle : ExcerptStyle where
  opening := ['[']
  closing := [']']
  ellipsis := ['.', '.', '.']
  tokens := 16

/-- How much of a content a listing shows. -/
def listedLength : Nat := 200

/-- A text up to its first zero character. -/
def untilZero (cs : List Char) : List Char :=
  cs.takeWhile (· ≠ '\x00')

/-- The start of a content as a listing shows it. -/
def beginning (content : String) : String :=
  String.ofList ((untilZero content.toList).take listedLength)

def listed (r : Row) : Hit :=
  ⟨r.rowid, r.title, r.sourcePath, r.tag, beginning r.content, 0.0⟩

def listing (t : Table) (limit : Nat) : List Hit :=
  ((t.rows.filter Row.isLive).take limit).map listed

/-- The expression of a query text, which ends at a zero character. A text that starts with a star
is a directive, and there are none to give. -/
def expression (tokenizer : Tokenizer) (text : List Char) : Except QueryError Expr :=
  match untilZero text with
  | '*' :: rest =>
    .error (.unknownDirective
      (String.ofList ((rest.dropWhile (· = ' ')).takeWhile (· ≠ ' '))))
  | read => Query.Parser.whole ⟨tokenizer.terms, Store.columnNames⟩ (Query.Token.ofText read)

/-- A row that matches, with the places of each phrase and its score. -/
structure Ranked where
  row : Row
  positions : List (List Position)
  score : Float

/-- Whether a ranked row comes before another one or may: no number at all comes first, then the
lower score. -/
def Ranked.le (a b : Ranked) : Bool :=
  if Binary64.isNaN a.score then true
  else if Binary64.isNaN b.score then false
  else Binary64.orderKey a.score ≤ Binary64.orderKey b.score

/-- What an index has of a row that matches: its number, the number of its terms, and the places of
each phrase. -/
structure Match where
  number : Nat
  size : Nat
  positions : List (List Position)
deriving DecidableEq, Repr

def matching (e : Expr) (entries : List Entry) : List Match :=
  (e.findIn (entries.map (·.document))).filterMap fun found =>
    entries[found.1]?.map fun entry => ⟨entry.number, entry.document.size, found.2⟩

def statistics (indexing : Indexing) (e : Expr) : Statistics :=
  .ofDocuments (indexing.entries.map (·.document)) e

/-- The rows that match, in the order of their numbers, with their scores. -/
def ranked (indexing : Indexing) (weights : List Float) (e : Expr) (rows : List Row) :
    List Ranked :=
  let found := matching e indexing.entries
  let statistics := statistics indexing e
  rows.filterMap fun r =>
    (found.find? (·.number = r.rowid)).map fun m =>
      ⟨r, m.positions, Index.Score.score weights statistics m.size m.positions⟩

def snippet (tokenizer : Tokenizer) (e : Expr) (r : Ranked) : String :=
  let text := r.row.content.toList
  let instances := Index.Excerpt.instances excerptColumn
    ((e.phrases.map (·.1.terms.length)).zip r.positions)
  String.ofList (Index.Excerpt.render excerptStyle text (tokenizer.tokens text) instances)

/-- Whether the places of a match in the column of excerpts are places of the row. -/
def Ranked.fits (tokenizer : Tokenizer) (r : Ranked) : Bool :=
  let size := (tokenizer.tokens r.row.content.toList).length
  r.positions.flatten.all fun p => p.column ≠ excerptColumn || p.offset ≤ size

/-- The hit of a row that matches. No excerpt can be made of places that are not of the row, and a
score that is no number cannot be returned. -/
def hit (tokenizer : Tokenizer) (e : Expr) (r : Ranked) : Except StoreError Hit :=
  if !r.fits tokenizer then .error .malformedCollection
  else if Binary64.isNaN r.score then .error (.missingValue 5 "rank")
  else
    .ok ⟨r.row.rowid, r.row.title, r.row.sourcePath, r.row.tag, snippet tokenizer e r, r.score⟩

def best (indexing : Indexing) (weights : List Float) (e : Expr) (rows : List Row) (limit : Nat) :
    Except StoreError (List Hit) :=
  let sorted := (ranked indexing weights e rows).mergeSort Ranked.le
  ((sorted.filter fun r => r.row.isLive).take limit).mapM (hit indexing.tokenizer e)

def listCollection (db : Database) (collection : String) (limit : Nat) :
    Except StoreError (List Hit) :=
  match db.find? collection with
  | none => .error (.noSuchTable collection)
  | some (.table t) => .ok (listing t limit)
  | some (.auxiliary _ part) =>
    if part.hasRowid then
      .error (.noSuchColumn "title" (some (Store.Statement.listingTitle collection)))
    else .error (.noSuchColumn "rowid" (some (Store.Statement.listingRowid collection)))

/-- A ranked search of a collection whose name stands for the current time: no live row can be
compared with it. -/
def searchTime (db : Database) (collection : String) : Except StoreError (List Hit) :=
  match db.find? collection with
  | none => .error (.noSuchTable collection)
  | some (.table ⟨_, .indexed _, rows⟩) =>
    if rows.any Row.isLive then .error (.unusableFunction "MATCH") else .ok []
  | some _ => .error (.noSuchColumn "rank" (some (Store.Statement.rankedRank collection)))

def rankCollection (db : Database) (collection : String) (text : List Char) (limit : Nat) :
    Except StoreError (List Hit) :=
  if Store.Name.isAmong Store.Name.expressionWords collection then
    .error (.misplaced "," (Store.Statement.rankedComma collection))
  else if Store.Name.isAmong Store.Name.timeWords collection then searchTime db collection
  else
    match db.find? collection with
    | none => .error (.noSuchTable collection)
    | some (.table ⟨_, .indexed indexing, rows⟩) =>
      match expression indexing.tokenizer text with
      | .error e => .error (.query e)
      | .ok e =>
        best indexing ((indexing.rank.map Index.RankExpression.weights).getD []) e rows limit
    | some (.table _) =>
      if Store.Name.isAmong (Store.columnNames ++ Store.Name.numberNames) collection then
        .error (.noSuchColumn "rank" (some (Store.Statement.rankedRank collection)))
      else .error (.noSuchColumn collection (some (Store.Statement.rankedName collection)))
    | some (.auxiliary _ part) =>
      if part.hasRowid then
        .error (.noSuchColumn "title" (some (Store.Statement.rankedTitle collection)))
      else .error (.noSuchColumn "rowid" (some (Store.Statement.rankedRowid collection)))

/-- At most some number of hits for a text, with the numbers that the rows have. -/
def answer (db : Database) (collection text : String) (topK : Nat) :
    Except SearchError (List Hit) :=
  if topK = 0 then .error .zeroHits
  else
    let text := Text.trim text.toList
    let limit := min topK greatestLimit
    let found :=
      if text.isEmpty then listCollection db collection limit else rankCollection
        db collection text limit
    match found with
    | .ok hits => .ok hits
    | .error e => .error (.query e)

end Search

end TextArchive
