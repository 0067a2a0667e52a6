import TextArchive.Ingest.Run
import TextArchive.Proofs.Ingest.Recording
import TextArchive.Search

/-!
Sessions: sequences of operations on a storage and on connections to the collections in it, with the
batches that collections have been asked to take. Between operations the files may be changed from
outside, but nobody else makes a database.
-/

set_option autoImplicit false
set_option relaxedAutoImplicit false

namespace TextArchive

open TextArchive.File (Disk Node Path)
open TextArchive.Ingest
open TextArchive.Store (Config Connection Engine Storage)

def File.Node.key? : Node → Option Nat
  | .file (.stored key) => some key
  | _ => none

def File.Disk.storedKeys (disk : Disk) : List Nat :=
  disk.entries.filterMap (·.2.key?)

/-- A batch that the collection of a name in the database of a key was asked to take, on a
connection that keeps a journal or does not. -/
structure Insertion where
  key : Nat
  collection : String
  journaled : Bool
  attempt : Attempt

/-- Whether a batch was taken, or undone with the help of a journal. -/
def Insertion.isWhole (i : Insertion) : Bool :=
  i.attempt.result.isOk || i.journaled

/-- Whether every batch for the database of a key was taken or undone with the help of a journal. -/
def AreWhole (insertions : List Insertion) (key : Nat) : Prop :=
  ∀ i ∈ insertions, i.key = key → i.isWhole = true

instance (insertions : List Insertion) (key : Nat) : Decidable (AreWhole insertions key) :=
  inferInstanceAs (Decidable (∀ i ∈ insertions, i.key = key → i.isWhole = true))

/-- The records that have been taken under a name in a database, first one first. -/
def held (insertions : List Insertion) (key : Nat) (name : String) : List Record :=
  committed
    ((insertions.filter fun i => i.key = key && Store.Name.same i.collection name).map (·.attempt))

/-- A storage, the connections that are open, and the batches that have been handed over so far. -/
structure Session where
  storage : Storage
  connections : List Connection
  insertions : List Insertion

/-- What a connection can be used for. -/
inductive Use where
  | insertBatch (records : List Record)
  | setRank (weights : Weights)
  | rebuild
  | optimize
  | maintain (weights : Weights)
  | ingest (options : Options) (source : Disk → List SourceItem)
  | search (text : String) (topK : Nat)
  | count
  | close

/-- An operation. A connection is meant by its number. -/
inductive Operation where
  | connect (path : Path) (config : Config)
  | connectExisting (path : Path) (collection : String)
  | run (options : Options) (root path : Path) (config : Config)
  | use (connection : Nat) (use : Use)

namespace Session

/-- Whether a journal is kept for what is done on a connection. -/
def isJournaled (s : Storage) (c : Connection) : Bool :=
  (c.unjournaled s).isNone

def start (disk : Disk) : Session :=
  ⟨.ofDisk disk, [], []⟩

def connected (s : Session) (made : Outcome Storage Connection) : Session :=
  ⟨made.state, s.connections ++ made.result.toOption.toList, s.insertions⟩

def keep (s : Session) (c : Connection) (done : StoredCollection) : Session :=
  { s with storage := c.keep s.storage done }

def note (s : Session) (insertions : List Insertion) : Session :=
  { s with insertions := s.insertions ++ insertions }

section Perform

variable [Engine]

/-- The batches that an ingestion into the collection of a connection hands over. -/
def ingestInsertions (options : Options) (source : Disk → List SourceItem) (s : Storage)
    (c : Connection) :
    List Insertion :=
  (Ingestion.ingest options ((Ingestion.builder options).build s.shown) (source s.shown)
    (Recorded.start (c.stored s))).state.attempts.map (⟨c.key, c.collection, isJournaled s c, ·⟩)

/-- The batches that a run hands over, if it gets as far as to a connection. -/
def runInsertions (options : Options) (root path : Path) (config : Config) (s : Storage) :
    List Insertion :=
  match options.validate, Folder.ofPath s.shown root with
  | .ok (), .ok folder =>
    match (s.connect path config).result with
    | .ok c => ingestInsertions options folder.items (s.connect path config).state c
    | .error _ => []
  | _, _ => []

/-- Use an open connection. What is answered leaves nothing behind. -/
def use (s : Session) (n : Nat) (c : Connection) : Use → Session
  | .insertBatch records =>
    let (result, done) := FullTextCollection.insertBatch (c.stored s.storage) records
    (s.keep c done).note [⟨c.key, c.collection, isJournaled s.storage c, records, result⟩]
  | .setRank weights => s.keep c (FullTextCollection.setRank (c.stored s.storage) weights).2
  | .rebuild => s.keep c (FullTextCollection.rebuild (c.stored s.storage)).2
  | .optimize => s.keep c (FullTextCollection.optimize (c.stored s.storage)).2
  | .maintain weights => s.keep c (Maintenance.run weights (c.stored s.storage)).2.2
  | .ingest options source =>
    { s with storage := (Ingestion.ingestConnected options source s.storage c).state }.note
      (ingestInsertions options source s.storage c)
  | .search _ _ => s
  | .count => s
  | .close => { s with storage := s.storage.disconnect c, connections := s.connections.eraseIdx n }

def perform (s : Session) : Operation → Session
  | .connect path config => s.connected (s.storage.connect path config)
  | .connectExisting path collection => s.connected (s.storage.connectExisting path collection)
  | .run options root path config =>
    { s with storage := (Ingestion.run options root path config s.storage).state }.note
      (runInsertions options root path config s.storage)
  | .use n use => s.connections[n]?.elim s fun c => s.use n c use

end Perform

/-- The collection that an operation is about. -/
def subject? (s : Session) : Operation → Option String
  | .connect _ config => some config.collection
  | .connectExisting _ collection => some collection
  | .run _ _ _ config => some config.collection
  | .use n _ => s.connections[n]?.map (·.collection)

/-- The sessions that operations lead to from files none of which is a database. -/
inductive Reachable [Engine] : Session → Prop
  | start (disk : Disk) (plain : disk.storedKeys = []) : Reachable (start disk)
  | perform {s : Session} (before : Reachable s) (operation : Operation) :
      Reachable (s.perform operation)
  | changeFiles {s : Session} (before : Reachable s) (disk : Disk)
      (known : ∀ key ∈ disk.storedKeys, key ∈ s.storage.disk.storedKeys) :
      Reachable { s with storage := { s.storage with disk } }

end Session

end TextArchive
