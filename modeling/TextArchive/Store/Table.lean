import TextArchive.Index.Tokenizer
import TextArchive.Index.Document
import TextArchive.Record
import TextArchive.Store.Error
import TextArchive.Store.Name

/-!
Tables as a database keeps them: ordinary ones with a bound on their contents, and collections with
a full-text index. The index of a collection is kept beside its rows, in segments, of which every
transaction adds one; it is searched in place of the rows. A collection brings the auxiliary tables
of its index along, whose names count as taken.
-/

set_option autoImplicit false
set_option relaxedAutoImplicit false

namespace TextArchive.Store

open TextArchive.Index (Document Tokenizer)

structure Row where
  rowid : Nat
  title : String
  sourcePath : String
  content : String
  tag : String
  deletedAt : Option String
deriving DecidableEq, Repr

namespace Row

def ofRecord (rowid : Nat) (r : Record) : Row :=
  ⟨rowid, r.title, r.sourcePath, r.content, r.tag, r.deletedAt.map Timestamp.text⟩

def isLive (r : Row) : Bool := r.deletedAt.isNone

/-- The texts of a row that are indexed, in column order. -/
def texts (r : Row) : List (List Char) :=
  [r.title.toList, r.sourcePath.toList, r.content.toList, r.tag.toList]

end Row

def columnNames : List String := ["title", "source_path", "content", "tag", "deleted_at"]

/-- What an index has of a row: its number and its terms. -/
structure Entry where
  number : Nat
  document : Document
deriving DecidableEq, Repr

def Entry.ofRow (tokenizer : Tokenizer) (r : Row) : Entry :=
  ⟨r.rowid, .ofTexts tokenizer r.texts⟩

/-- How a collection is indexed: the tokenizer with the specification that chose it, the rank
expression set for the collection, if any, and the index itself. What the open transaction has added
waits to become a segment. -/
structure Indexing where
  specification : String
  tokenizer : Tokenizer
  rank : Option String
  segments : List (List Entry)
  pending : List Entry
deriving DecidableEq, Repr

namespace Indexing

def empty (specification : String) (tokenizer : Tokenizer) : Indexing :=
  ⟨specification, tokenizer, none, [], []⟩

/-- What an index says, in the order of its making. -/
def entries (i : Indexing) : List Entry :=
  i.segments.flatten ++ i.pending

def withRank (rank : String) (i : Indexing) : Indexing :=
  { i with rank := some rank }

def note (r : Row) (i : Indexing) : Indexing :=
  { i with pending := i.pending ++ [.ofRow i.tokenizer r] }

/-- Make one segment of all there is. -/
def merge (i : Indexing) : Indexing :=
  { i with segments := [i.entries], pending := [] }

def build (rows : List Row) (i : Indexing) : Indexing :=
  { i with segments := [rows.map (.ofRow i.tokenizer)], pending := [] }

/-- The number of segments that hold some term. -/
def filled (i : Indexing) : Nat :=
  (i.segments.filter fun segment => segment.any fun entry => 0 < entry.document.size).length

/-- With so many segments, an index is merged without being told to. -/
def mostSegments : Nat := 16

/-- Make a segment of what has been waiting for the end of the transaction. -/
def flush (i : Indexing) : Indexing :=
  if i.pending.isEmpty then i
  else
    let grown := { i with segments := i.segments ++ [i.pending], pending := [] }
    if grown.filled < mostSegments then grown else grown.merge

end Indexing

inductive TableKind where
  /-- A collection. -/
  | indexed (indexing : Indexing)
  /-- An ordinary table with the greatest length of its contents. -/
  | plain (longest : Nat)
deriving DecidableEq, Repr

structure Table where
  name : String
  kind : TableKind
  rows : List Row
deriving DecidableEq, Repr

/-- The tables that belong to the index of a collection. -/
inductive Auxiliary where
  | data
  | idx
  | content
  | docsize
  | config
deriving DecidableEq, Repr

namespace Auxiliary

/-- Every auxiliary table, in the order in which they are made. -/
def all : List Auxiliary := [.data, .idx, .content, .docsize, .config]

def suffix : Auxiliary → String
  | .data => "data"
  | .idx => "idx"
  | .content => "content"
  | .docsize => "docsize"
  | .config => "config"

def tableName (collection : String) (a : Auxiliary) : String :=
  collection ++ "_" ++ a.suffix

/-- Whether the rows of the table are numbered. -/
def hasRowid : Auxiliary → Bool
  | .idx => false
  | .config => false
  | _ => true

end Auxiliary

namespace Table

def auxiliaries (t : Table) : List Auxiliary :=
  match t.kind with
  | .indexed _ => Auxiliary.all
  | .plain _ => []

/-- The segments of the index of a table. -/
def segments (t : Table) : List (List Entry) :=
  match t.kind with
  | .indexed indexing => indexing.segments
  | .plain _ => []

/-- The names that a table takes, its own first. -/
def names (t : Table) : List String :=
  t.name :: t.auxiliaries.map (Auxiliary.tableName t.name)

/-- The number of the next row, which follows the greatest one. -/
def nextRowid (t : Table) : Nat :=
  (t.rows.map (·.rowid)).foldl max 0 + 1

/-- The length of a text for the database, which ends at a zero character. -/
def textLength (s : String) : Nat :=
  (s.toList.takeWhile (· ≠ '\x00')).length

def reindex (change : Indexing → Indexing) (t : Table) : Table :=
  match t.kind with
  | .indexed indexing => { t with kind := .indexed (change indexing) }
  | .plain _ => t

section Reindex

variable (t : Table) (change : Indexing → Indexing)

@[simp] theorem name_reindex : (t.reindex change).name = t.name := by
  unfold reindex
  split <;> rfl

@[simp] theorem rows_reindex : (t.reindex change).rows = t.rows := by
  unfold reindex
  split <;> rfl

@[simp] theorem auxiliaries_reindex : (t.reindex change).auxiliaries = t.auxiliaries := by
  cases kind : t.kind <;> simp only [reindex, auxiliaries, kind]

variable {t}

theorem reindex_of_indexed {indexing : Indexing} (kind : t.kind = .indexed indexing) :
    t.reindex change = { t with kind := .indexed (change indexing) } := by
  simp only [reindex, kind]

end Reindex

def add (t : Table) (r : Record) : Table :=
  let row := Row.ofRecord t.nextRowid r
  { t with rows := t.rows ++ [row] }.reindex (·.note row)

section Add

variable (t : Table) (r : Record)

@[simp] theorem name_add : (t.add r).name = t.name :=
  name_reindex ..

@[simp] theorem rows_add : (t.add r).rows = t.rows ++ [Row.ofRecord t.nextRowid r] :=
  rows_reindex ..

@[simp] theorem auxiliaries_add : (t.add r).auxiliaries = t.auxiliaries :=
  auxiliaries_reindex ..

end Add

end Table

structure Database where
  /-- Whether changes go to a log beside the file first. -/
  writeAhead : Bool
  tables : List Table
deriving DecidableEq, Repr

/-- Change the indexes of all collections. -/
def Database.reindex (change : Indexing → Indexing) (db : Database) : Database :=
  { db with tables := db.tables.map (Table.reindex change) }

end TextArchive.Store
