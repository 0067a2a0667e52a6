import TextArchive.Store.Setting
import TextArchive.Store.Table

/-!
The engine behind a database. What it refuses, and what ordinary tables make of a record, is up to
it: tables may have been made with constraints and triggers of any kind, and a disk may be full. Nor
does anything fix what is left of tables that a transaction has changed when it is given up where no
journal is kept. Statements that add no records are taken to find the room that they need.
-/

set_option autoImplicit false
set_option relaxedAutoImplicit false

namespace TextArchive.Store

/-- Why a statement is refused, and whether that ends the transaction which is open. -/
structure Refusal where
  error : StoreError
  endsTransaction : Bool
deriving DecidableEq, Repr

class Engine where
  /-- Why a table refuses a record, if it does. -/
  refuses? : Table → Record → Option Refusal
  /-- The rows of an ordinary table after a record that it does not refuse, which it may have
  skipped or put in the place of others. -/
  rowsAfter : Table → Record → List Row
  /-- Why a database cannot take the place of the one before the transaction, if it cannot. -/
  refusesCommit? : Database → Option StoreError
  /-- What is left, on a medium, of a table and its working copy when the copy is given up without a
  journal: the rows, and the segments of the index. -/
  remains : Medium → Table → Table → List Row × List (List Entry)

namespace Engine

def greatestSize : Nat := 1000000000

def size (r : Record) : Nat :=
  r.title.utf8ByteSize + r.sourcePath.utf8ByteSize + r.content.utf8ByteSize + r.tag.utf8ByteSize

/-- The refusal of records that are too big, and of contents that are too long for an ordinary
table. -/
def refusesBySize? (t : Table) (r : Record) : Option Refusal :=
  if greatestSize < size r then some ⟨.tooBig, false⟩
  else
    match t.kind with
    | .indexed _ => none
    | .plain longest =>
      if longest < Table.textLength r.content then some ⟨.contentTooLong longest, false⟩ else none

/-- What is left without a journal: the pages of a file are read again, but memory is as the
transaction has left it, without what its indexes have not written yet. -/
def remainsByMedium : Medium → Table → Table → List Row × List (List Entry)
  | .file, committed, _ => (committed.rows, committed.segments)
  | _, _, working => (working.rows, working.segments)

/-- An engine with ordinary tables that add what they do not refuse, and with room for
everything. -/
instance (priority := low) standard : Engine where
  refuses? := refusesBySize?
  rowsAfter t r := t.rows ++ [Row.ofRecord t.nextRowid r]
  refusesCommit? _ := none
  remains := remainsByMedium

end Engine

section

variable [Engine]

/-- A table after a record that it does not refuse. -/
def Table.accept (t : Table) (r : Record) : Table :=
  match t.kind with
  | .indexed _ => t.add r
  | .plain _ => { t with rows := Engine.rowsAfter t r }

/-- What is left, on a medium, of a table and its working copy when the copy is given up without a
journal. Adding records changes nothing but rows and segments, and a table that has not been changed
stays. -/
def Table.left (medium : Medium) (committed working : Table) : Table :=
  if working = committed then committed
  else
    let (rows, segments) := Engine.remains medium committed working
    { committed with rows }.reindex fun i => { i with segments, pending := [] }

def Database.left (medium : Medium) (committed working : Database) : Database :=
  { committed with tables := committed.tables.zipWith (Table.left medium) working.tables }

end

end TextArchive.Store
