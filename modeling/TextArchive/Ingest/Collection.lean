import TextArchive.Ingest.Error
import TextArchive.Store.Transaction

/-!
Collections that records can be ingested into: one of a database, and one in memory that counts what
is asked of it and can be told to refuse.
-/

set_option autoImplicit false
set_option relaxedAutoImplicit false

namespace TextArchive.Ingest

open TextArchive.Store (Database Engine Medium StoreError Transacted)

/-- A collection with a state: batches of records are added whole or not at all, and the commands of
index maintenance stand by themselves. An operation gives its outcome and the state after it. -/
class FullTextCollection (σ : Type) where
  insertBatch : σ → List Record → Except StoreError Unit × σ
  setRank : σ → Weights → Except StoreError Unit × σ
  rebuild : σ → Except StoreError Unit × σ
  optimize : σ → Except StoreError Unit × σ

/-- A collection of a database, on a connection that keeps a journal or, on some medium, keeps
none. -/
structure StoredCollection where
  database : Database
  name : String
  unjournaled : Option Medium
deriving DecidableEq, Repr

/-- The outcome of an operation on the database, which stays as it is if the operation is
refused. -/
def StoredCollection.after (s : StoredCollection) (result : Except StoreError Database) :
    Except StoreError Unit × StoredCollection :=
  match result with
  | .ok database => (.ok (), { s with database })
  | .error e => (.error e, s)

def StoredCollection.insertBatch [Engine] (s : StoredCollection) (records : List Record) :
    Except StoreError Unit × StoredCollection :=
  let (result, left) := (Transacted.settled s.database s.unjournaled).insertBatch s.name records
  (result, { s with database := left.committed })

instance [Engine] : FullTextCollection StoredCollection where
  insertBatch := StoredCollection.insertBatch
  setRank s weights := s.after (s.database.setRank s.name weights.expression)
  rebuild s := s.after (s.database.rebuild s.name)
  optimize s := s.after (s.database.optimize s.name)

/-- A collection in memory: the batches it has kept, the commands it has been given, how many
batches it was asked to keep, and which batches and commands it refuses. -/
structure MemoryCollection where
  committed : List (List Record)
  commands : List String
  attempts : Nat
  refusedBatches : List Nat
  refusedCommands : List String
deriving DecidableEq, Repr

namespace MemoryCollection

/-- An empty collection that refuses some batches, counted from one, and some commands. -/
def refusing (batches : List Nat) (commands : List String) : MemoryCollection :=
  ⟨[], [], 0, batches, commands⟩

/-- Take a batch, unless this attempt is to be refused. -/
def insertBatch (m : MemoryCollection) (records : List Record) :
    Except StoreError Unit × MemoryCollection :=
  let m := { m with attempts := m.attempts + 1 }
  if m.refusedBatches.contains m.attempts then (.error .notReadOnly, m)
  else (.ok (), { m with committed := m.committed ++ [records] })

def command (m : MemoryCollection) (step : MaintenanceStep) (adds : List String) :
    Except StoreError Unit × MemoryCollection :=
  let m := { m with commands := m.commands ++ [step.name] }
  if m.refusedCommands.contains step.name then (.error .notReadOnly, m)
  else (.ok (), { m with commands := m.commands ++ adds })

def records (m : MemoryCollection) : List Record :=
  m.committed.flatten

end MemoryCollection

instance : FullTextCollection MemoryCollection where
  insertBatch := MemoryCollection.insertBatch
  setRank m weights := m.command .setRank [weights.expression]
  rebuild m := m.command .rebuild []
  optimize m := m.command .optimize []

end TextArchive.Ingest
