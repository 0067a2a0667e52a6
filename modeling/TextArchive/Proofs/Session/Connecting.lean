import TextArchive.Proofs.Session.Keeping

/-!
What asking for a connection comes to. A path leads to a database, the log of that database is
switched, and a collection is added to it if its name is free; all other databases stay as they are.
-/

set_option autoImplicit false
set_option relaxedAutoImplicit false

namespace TextArchive.Store.Storage

open TextArchive.File (Disk Path)
open TextArchive.Ingest (IngestError Outcome)

/-- A storage after a change of one database; the files are where they were. -/
structure Changes (key : Nat) (s s' : Storage) : Prop where
  disk : s'.disk = s.disk
  length : s'.databases.length = s.databases.length
  others : ∀ other, other ≠ key → s'.database other = s.database other

private theorem Changes.refl (key : Nat) (s : Storage) : Changes key s s :=
  ⟨rfl, rfl, fun _ _ => rfl⟩

private theorem changes_setDatabase (s : Storage) (key : Nat) (db : Database) :
    Changes key s (s.setDatabase key db) where
  disk := rfl
  length := s.length_setDatabase key db
  others other apart := by
    rw [database_setDatabase, if_neg fun h => apart h.1.symm]

/-- How a request for a connection ends: it is refused before the path has led anywhere, it is
refused when the log of the database has been switched at most, or the database has the collection
when its log has been switched. -/
inductive Connecting (s : Storage) (path : Path) (config : Config)
    (made : Outcome Storage Connection) : Prop
  | refused (e : IngestError) (result : made.result = .error e) (state : made.state = s)
  | failed {attached : Attached} {s' : Storage} (e : IngestError) (result : made.result = .error e)
      (found : s.attach path true = .ok (attached, s'))
      (changes : Changes attached.key s' made.state)
      (tables : (made.state.database attached.key).tables = (s'.database attached.key).tables)
  | connected {attached : Attached} {s' : Storage} (c : Connection) (result : made.result = .ok c)
      (found : s.attach path true = .ok (attached, s')) (key : c.key = attached.key)
      (medium : c.medium = attached.medium) (steady : c.medium ≠ .device)
      (collection : c.collection = config.collection)
      (opened : made.state.connected = attached.key :: s'.connected)
      (changes : Changes attached.key s' made.state) (writeAhead : Bool)
      (created : ({ s'.database attached.key with writeAhead } : Database).createCollection config.collection
        config.tokenizer = .ok (made.state.database attached.key))

theorem tables_setWriteAhead (s : Storage) (key : Nat) (mode : JournalMode) (other : Nat) :
    ((s.setWriteAhead key mode).database other).tables = (s.database other).tables := by
  rw [setWriteAhead, database_setDatabase]
  split
  · rename_i same
    rw [same.1]
  · rfl

private theorem connecting_attached {s s' : Storage} {path : Path} {attached : Attached}
    (found : s.attach path true = .ok (attached, s')) (inside : attached.key < s'.databases.length)
    (config : Config) :
    Connecting s path config (s'.connectAttached path config attached) := by
  unfold connectAttached
  generalize s'.modeFor attached config.pragmas = mode
  have switched := s'.changes_setDatabase attached.key
    { s'.database attached.key with writeAhead := mode = .wal }
  have database : (s'.setWriteAhead attached.key mode).database attached.key =
      { s'.database attached.key with writeAhead := mode = .wal } := by
    rw [setWriteAhead, database_setDatabase, if_pos ⟨rfl, inside⟩]
  simp only
  cases created :
    ((s'.setWriteAhead attached.key mode).database attached.key).createCollection config.collection
    config.tokenizer with
  | error e =>
    exact .failed _ rfl found switched (s'.tables_setWriteAhead attached.key mode attached.key)
  | ok db =>
    have added := (s'.setWriteAhead attached.key mode).changes_setDatabase attached.key db
    dsimp only
    split
    · exact .failed _ rfl found switched (s'.tables_setWriteAhead attached.key mode attached.key)
    rename_i steady
    refine .connected _ rfl found rfl rfl steady rfl rfl ⟨added.disk.trans switched.disk,
      added.length.trans switched.length, fun other apart =>
        (added.others other apart).trans (switched.others other apart)⟩ (mode = .wal) ?_
    rw [← database, created]
    show _ = Except.ok
      (((s'.setWriteAhead attached.key mode).setDatabase attached.key db).database attached.key)
    rw [database_setDatabase, if_pos ⟨rfl, switched.length.symm ▸ inside⟩]

theorem connecting {s : Storage} (known : ∀ key ∈ s.disk.storedKeys, key < s.databases.length)
    (path : Path)
    (config : Config) : Connecting s path config (s.connect path config) := by
  unfold connect
  split
  · exact .refused _ rfl rfl
  split
  · exact .refused _ rfl rfl
  rename_i attached s' found
  split
  · exact .failed _ rfl found (.refl _ _) rfl
  split
  · exact .failed _ rfl found (s'.changes_setDatabase attached.key _)
      (s'.tables_setWriteAhead attached.key _ attached.key)
  · exact connecting_attached found ((attaches_of_attach found).known known).1 config

/-- A connection that is made leads to the database of its path, in which the collection has been
made. -/
theorem connected_of_ok {s : Storage} (known : ∀ key ∈ s.disk.storedKeys, key < s.databases.length)
    {path : Path} {config : Config} {c : Connection}
    (made : (s.connect path config).result = .ok c) :
    let b := (s.connect path config).state
    ∃ attached s', s.attach path true = .ok (attached, s') ∧ c.key = attached.key ∧
      c.medium = attached.medium ∧
      c.medium ≠ .device ∧ c.collection = config.collection ∧
        b.connected = attached.key :: s'.connected ∧ Changes attached.key s' b ∧
      ∃ writeAhead,
        ({ s'.database attached.key with writeAhead } : Database).createCollection config.collection
        config.tokenizer = .ok (b.database attached.key) := by
  cases connecting known path config with
  | refused e result => cases result.symm.trans made
  | failed e result => cases result.symm.trans made
  | @connected attached s' c' result found key medium steady collection opened
    changes writeAhead created =>
    obtain rfl : c' = c := Except.ok.inj (result.symm.trans made)
    exact ⟨attached, s', found, key, medium, steady, collection, opened,
      changes, writeAhead, created⟩

end TextArchive.Store.Storage
