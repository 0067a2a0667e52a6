import TextArchive.Store.Database

/-!
Transactions on a database. Outside a transaction every statement is committed at once; within one,
statements change a working copy, which takes the place of the database when the transaction is
committed. When it is undone, a journal brings the database back; without a journal, the engine
decides what is left.
-/

set_option autoImplicit false
set_option relaxedAutoImplicit false

namespace TextArchive.Store

/-- A database and the working copy of the transaction that is open on it, if there is one. -/
structure Transacted where
  committed : Database
  working : Option Database
  /-- Where the database is kept, if no journal is. -/
  unjournaled : Option Medium
deriving DecidableEq, Repr

namespace Transacted

/-- The database as statements find it. -/
def current (t : Transacted) : Database :=
  t.working.getD t.committed

def settled (db : Database) (unjournaled : Option Medium) : Transacted :=
  ⟨db, none, unjournaled⟩

def begin (t : Transacted) : Except StoreError Transacted :=
  match t.working with
  | some _ => .error .withinTransaction
  | none => .ok { t with working := some t.committed }

variable [Engine]

def undo (t : Transacted) (working : Database) : Transacted :=
  match t.unjournaled with
  | none => settled t.committed none
  | some medium => settled (Database.left medium t.committed working) (some medium)

/-- Let the working copy of a transaction take the place of the database. -/
def settle (t : Transacted) (working : Database) : Transacted :=
  { t with committed := working.reindex Indexing.flush, working := none }

/-- Carry out a statement. One that is refused changes nothing, and a transaction stays open all the
same unless the refusal ends it. -/
def execute (t : Transacted) (statement : Database → Except Refusal Database) :
    Except StoreError Unit × Transacted :=
  match t.working, statement t.current with
  | some _, .ok db => (.ok (), { t with working := some db })
  | some working, .error refusal => (.error refusal.error,
    if refusal.endsTransaction then t.undo working else t)
  | none, .ok db => (.ok (), t.settle db)
  | none, .error refusal => (.error refusal.error, t)

def commit (t : Transacted) : Except StoreError Unit × Transacted :=
  match t.working with
  | none => (.error (.withoutTransaction "commit"), t)
  | some working =>
    match Engine.refusesCommit? working with
    | some e => (.error e, t)
    | none => (.ok (), t.settle working)

def rollback (t : Transacted) : Except StoreError Unit × Transacted :=
  match t.working with
  | none => (.error (.withoutTransaction "rollback"), t)
  | some working => (.ok (), t.undo working)

/-- Add records one by one, up to the first that is refused. -/
def insertEach (t : Transacted) (collection : String) :
    List Record → Except StoreError Unit × Transacted
  | [] => (.ok (), t)
  | r :: rs =>
    match t.execute (·.insert collection r) with
    | (.error e, t) => (.error e, t)
    | (.ok (), t) => t.insertEach collection rs

/-- Prepare a statement that adds a record and carry it out for each of the records. -/
def insertAll (t : Transacted) (collection : String) (records : List Record) :
    Except StoreError Unit × Transacted :=
  match t.current.insertable collection with
  | .error e => (.error e, t)
  | .ok _ => t.insertEach collection records

/-- Commit a transaction, which is rolled back if that is refused. -/
def conclude (t : Transacted) : Except StoreError Unit × Transacted :=
  match t.commit with
  | (.ok (), t) => (.ok (), t)
  | (.error e, t) => (.error e, t.rollback.2)

/-- Add records in a transaction, which is committed if none of them is refused and rolled back
otherwise; it may have ended before. -/
def insertBatch (t : Transacted) (collection : String) (records : List Record) :
    Except StoreError Unit × Transacted :=
  match t.begin with
  | .error e => (.error e, t)
  | .ok t =>
    match t.insertAll collection records with
    | (.ok (), t) => t.conclude
    | (.error e, t) => (.error e, t.rollback.2)

end Transacted

end TextArchive.Store
