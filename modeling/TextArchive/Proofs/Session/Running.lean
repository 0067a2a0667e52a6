import TextArchive.Proofs.Session.Connecting
import TextArchive.Proofs.Store.Loading

/-!
What a run comes to once it has found its folder and made its connection: if it succeeds, the
collection holds the records of all files that are taken, whatever the size of the batches.
-/

set_option autoImplicit false
set_option relaxedAutoImplicit false

namespace TextArchive

open TextArchive.File (Content Disk Location Node Path)
open TextArchive.File.Disk (Agree)
open TextArchive.Ingest
open TextArchive.Store (Attached Config Connection Database Engine Row Storage)

namespace Store

namespace Database

variable {db db' : Database} {collection : String}

private theorem isCollection_of_createCollection {specification : String}
    (before : db.find? collection = none ∨ db.IsCollection collection)
    (created : db.createCollection collection specification = .ok db') :
      db'.IsCollection collection := by
  rcases createCollection_cases created with ⟨rfl, there⟩ | ⟨-, -, tokenizer, -, rfl⟩
  · exact before.resolve_left there
  · rcases before with missing | there
    · exact ⟨_, _, find?_add_self _ missing, rfl⟩
    · exact Change.add.collections collection there

private theorem rows_of_createCollection {specification : String}
    (created : db.createCollection collection specification = .ok db') :
    (db'.rows collection).toOption.getD [] = (db.rows collection).toOption.getD [] := by
  rcases createCollection_cases created with ⟨rfl, -⟩ | ⟨missing, -, tokenizer, -, rfl⟩
  · rfl
  · rw [rows, rows, find?_add_self _ missing, missing]
    rfl

end Database

namespace Storage

/-- What making a connection has come to: nothing but the database that the path leads to has been
changed, and the collection is there unless its name stood for something else. -/
structure Made (s : Storage) (path : Path) (config : Config) (b : Storage) (c : Connection) :
    Prop where
  collection : c.collection = config.collection
  attaches : ∃ attached s', Attaches s path attached s' ∧ attached.medium ≠ .device ∧
    attached.key = c.key ∧
    b.disk = s'.disk ∧
    ∀ key, key ≠ c.key → b.database key = s'.database key ∧
      b.connected.contains key = s'.connected.contains key
  rows : (c.stored b).rows = ((s.database c.key).rows config.collection).toOption.getD []
  there : (s.database c.key).find? config.collection = none ∨
    (s.database c.key).IsCollection config.collection →
    (b.database c.key).IsCollection config.collection

theorem made_of_connect {s : Storage} {path : Path} {config : Config} {c : Connection}
    (known : ∀ key ∈ s.disk.storedKeys, key < s.databases.length)
    (made : (s.connect path config).result = .ok c) :
      Made s path config (s.connect path config).state c := by
  obtain ⟨attached, s', found, key, medium, steady, collection, opened, changes, writeAhead, created⟩ :=
    connected_of_ok known made
  have attaches := attaches_of_attach found
  rw [attaches.database] at created
  refine ⟨collection, ⟨attached, s', attaches, medium ▸ steady, key.symm, changes.disk,
    fun other apart => ⟨changes.others other (key ▸ apart), ?_⟩⟩, ?_, fun before => ?_⟩
  · rw [opened, ← key]
    simp [apart]
  · rw [Ingest.StoredCollection.rows, Connection.stored, collection, key]
    exact (Database.rows_of_createCollection created).trans rfl
  · rw [key] at before ⊢
    have free : ({ s.database attached.key with writeAhead } : Database).find? config.collection = none ∨
        ({ s.database attached.key with writeAhead } : Database).IsCollection config.collection := before
    exact Database.isCollection_of_createCollection free created

section Made

variable {s b : Storage} {path : Path} {config : Config} {c : Connection}

private theorem beside_of_disk {a b : Storage} {key : Nat} (same : b.disk = a.disk)
    (others : ∀ other, other ≠ key →
      b.database other = a.database other ∧ b.connected.contains other =
        a.connected.contains other) :
    Beside key (a.placesOf key) a b where
  disks := by
    rw [same]
    exact .refl _ _
  kept := fun _ member stored => mem_placesOf member stored
  databases := fun other _ apart => (others other apart).1
  connected := fun other _ apart => (others other apart).2

theorem Made.agree (made : Made s path config b c)
    (known : ∀ key ∈ s.disk.storedKeys, key < s.databases.length) :
    Agree (b.filesOf c.key) s.shown b.shown := by
  obtain ⟨attached, s', attaches, -, key, disk, others⟩ := made.attaches
  have first := (attaches.beside known).agree
  have second := (beside_of_disk disk others).agree
  have places : b.placesOf c.key = s'.placesOf c.key := by simp only [placesOf, disk]
  rw [key] at first
  rw [filesOf, places]
  exact first.trans second

end Made

end Storage

end Store

/-- The records of the files that a run takes from the tree below its folder, first one first. -/
def Ingest.Folder.records (folder : Folder) (options : Options) (tree : Disk) : List Record :=
  (firstFiles options.maxFiles (folder.items tree)).map fun p =>
    ((Ingestion.builder options).build tree p).record

namespace Session

variable [Engine] {b : Storage} {c : Connection} {insertions : List Insertion}

theorem attempts_of_ingested {options : Options} {source : Disk → List SourceItem} {report : Report}
    (ingested : (Ingestion.ingestConnected options source b c).result = .ok report) :
    let built := (firstFiles options.maxFiles (source b.shown)).map
      ((Ingestion.builder options).build b.shown)
    ingestInsertions options source b c = ((cut options.batchSize [] (built.map (·.record))).map
      fun batch => ⟨batch, .ok ()⟩).map (⟨c.key, c.collection, isJournaled b c, ·⟩) := by
  intro built
  change
    (Ingestion.ingest options ((Ingestion.builder options).build b.shown) (source b.shown) (c.stored b)).result =
    _ at ingested
  obtain ⟨positive, fits⟩ := (taken_of_ingest ingested).1
  rcases ingest_recorded positive fits ((Ingestion.builder options).build b.shown) (source b.shown) (c.stored b) with
    ⟨attempts, -, -⟩ | ⟨-, -, -, e, -, refused, -, -⟩
  · rw [ingestInsertions, attempts]
  · rw [ingest_start] at ingested
    rw [Outcome.mapState, refused] at ingested
    cases ingested

theorem held_of_ingested {options : Options} {source : Disk → List SourceItem} {report : Report}
    (ingested : (Ingestion.ingestConnected options source b c).result = .ok report) {name : String}
    (same : Store.Name.same c.collection name = true) :
    held (ingestInsertions options source b c) c.key name =
      (firstFiles options.maxFiles (source b.shown)).map fun p =>
        ((Ingestion.builder options).build b.shown p).record := by
  rw [attempts_of_ingested ingested, held_map _ _ _ same, committed_taken, flatten_cut,
    List.nil_append, List.map_map]
  rfl

private theorem ingestConnected_of_free {options : Options} (positive : 1 ≤ options.batchSize)
    (fits : options.batchSize ≤ BatchWriter.greatestBatch)
      (there : (b.database c.key).IsCollection c.collection)
    {source : Disk → List SourceItem}
    (free : (StoreCall.insertBatch ((firstFiles options.maxFiles (source b.shown)).map fun p =>
      ((Ingestion.builder options).build b.shown p).record)).IsFree) :
    ∃ report, (Ingestion.ingestConnected options source b c).result = .ok report :=
  StoredCollection.ingest_of_free (s := c.stored b) there positive fits free

/-- An ingestion all of whose batches are taken succeeds, and leaves what they leave with its index
maintained. -/
theorem ingestConnected_of_taken {options : Options} (positive : 1 ≤ options.batchSize)
    (fits : options.batchSize ≤ BatchWriter.greatestBatch) {source : Disk → List SourceItem}
      {loaded : StoredCollection}
    (taken : insertEach (c.stored b) (cut options.batchSize [] (((firstFiles options.maxFiles (source b.shown)).map
      ((Ingestion.builder options).build b.shown)).map (·.record))) = (.ok (), loaded)) :
    let done := Ingestion.ingestConnected options source b c
    (∃ report, done.result = .ok report) ∧ done.state = c.keep b
      (Maintenance.run options.weights loaded).2.2 := by
  obtain ⟨result, state⟩ := ingest_of_taken positive fits
    ((Ingestion.builder options).build b.shown) (source b.shown) taken
  exact ⟨⟨_, result⟩, congrArg (c.keep b) state⟩

theorem of_run_ok {s : Storage} {options : Options} {root path : Path} {config : Config}
    {report : Report} (ran : (Ingestion.run options root path config s).result = .ok report) :
    1 ≤ options.batchSize ∧ (∃ folder, Folder.ofPath s.shown root = .ok folder) ∧
      ∃ c, (s.connect path config).result = .ok c := by
  unfold Ingestion.run at ran
  cases valid : options.validate with
  | error e => simp [valid, Outcome.failed, Outcome.still] at ran
  | ok _ =>
    have positive : 1 ≤ options.batchSize := by
      refine Nat.pos_of_ne_zero fun zero => ?_
      simp [Options.validate, zero] at valid
    cases found : Folder.ofPath s.shown root with
    | error e => simp [valid, found, Outcome.failed, Outcome.still] at ran
    | ok folder =>
      refine ⟨positive, ⟨folder, rfl⟩, ?_⟩
      simp only [valid, found] at ran
      cases made : (s.connect path config).result with
      | error e =>
        rw [Outcome.andThen_error made] at ran
        cases ran
      | ok c => exact ⟨c, rfl⟩

section Run

variable {s : Storage} {options : Options} {root path : Path} {config : Config} {folder : Folder}
  (positive : 1 ≤ options.batchSize) (found : Folder.ofPath s.shown root = .ok folder)
  (made : (s.connect path config).result = .ok c)
include positive found made

/-- A run that has found its folder and made its connection is an ingestion. -/
theorem run_eq :
    let b := (s.connect path config).state
    let done := Ingestion.ingestConnected options folder.items b c
    (Ingestion.run options root path config s).result = done.result ∧
      (Ingestion.run options root path config s).state = done.state.disconnect c ∧
      runInsertions options root path config s = ingestInsertions options folder.items b c := by
  have valid : options.validate = .ok () := by simp [Options.validate, Nat.ne_of_gt positive]
  simp only [Ingestion.run, runInsertions, valid, found, made]
  generalize s.connect path config = connected at made
  obtain ⟨events, b, result⟩ := connected
  cases made
  exact ⟨rfl, rfl, trivial⟩

omit positive in
theorem run_overflow (overflow : BatchWriter.greatestBatch < options.batchSize) :
    (Ingestion.run options root path config s).result = .error .capacityOverflow := by
  refine (run_eq (Nat.zero_lt_of_lt overflow) found made).1.trans ?_
  simp only [Ingestion.ingestConnected, Ingestion.ingest_overflow overflow]
  rfl

/-- A run changes nothing in the tree of files but what connecting has changed, and what it shows
changes at the files of its database alone. -/
theorem agree_run :
    let b := (s.connect path config).state
    let done := (Ingestion.run options root path config s).state
    done.disk = b.disk ∧ Agree (b.filesOf c.key) b.shown done.shown := by
  intro b done
  have state : done = (Ingestion.ingestConnected options folder.items b c).state.disconnect c :=
    (run_eq positive found made).2.1
  have beside : Storage.Beside c.key (b.placesOf c.key) b done := by
    rw [state]
    refine Store.Storage.beside_of_disk rfl fun other apart => ⟨?_, ?_⟩
    · have elsewhere : ¬ (c.key = other ∧ c.key < b.databases.length) := fun h => apart h.1.symm
      show (b.setDatabase c.key _).database other = _
      rw [Storage.database_setDatabase, if_neg elsewhere]
    · show (b.connected.erase c.key).contains other = _
      simp [List.contains_eq_mem, List.mem_erase_of_ne apart]
  exact ⟨by rw [state]; rfl, beside.agree⟩

/-- A run succeeds if its collection is one and nothing stands in the way of the records of its
files. -/
theorem run_of_free (fits : options.batchSize ≤ BatchWriter.greatestBatch)
    (there : ((s.connect path config).state.database c.key).IsCollection c.collection)
    (free : (StoreCall.insertBatch (folder.records options (s.connect path config).state.shown)).IsFree) :
    ∃ report, (Ingestion.run options root path config s).result = .ok report := by
  rw [(run_eq positive found made).1]
  exact ingestConnected_of_free positive fits there free

omit positive in
theorem total_run {report : Report}
    (ran : (Ingestion.run options root path config s).result = .ok report) :
    report.total =
      (firstFiles options.maxFiles (folder.items (s.connect path config).state.shown)).length := by
  obtain ⟨positive, -, -⟩ := of_run_ok ran
  have ingested : (Ingestion.ingest options _ _ (c.stored (s.connect path config).state)).result = .ok report :=
    (run_eq positive found made).1.symm.trans ran
  exact (taken_of_ingest ingested).2.1

omit positive in
/-- The rows of the collection of a run that succeeds are those there were and then those of the
files that it takes. -/
theorem rows_run (known : ∀ key ∈ s.disk.storedKeys, key < s.databases.length)
    (adds : ∀ t, ((s.connect path config).state.database c.key).find? config.collection = some (.table t) → t.Adds)
    {report : Report} (ran : (Ingestion.run options root path config s).result = .ok report) :
    (c.stored (Ingestion.run options root path config s).state).rows =
      Row.following (((s.database c.key).rows config.collection).toOption.getD [])
        (folder.records options (s.connect path config).state.shown) := by
  obtain ⟨positive, -, -⟩ := of_run_ok ran
  obtain ⟨result, state, -⟩ := run_eq positive found made
  have leads := Storage.made_of_connect known made
  rw [result] at ran
  have adds : ∀ t, (c.stored (s.connect path config).state).database.find?
      (c.stored (s.connect path config).state).name = some (.table t) → t.Adds := by
    intro t there
    rw [Connection.stored, leads.collection] at there
    exact adds t there
  have rows := StoredCollection.rows_ingest adds ran
  have inside : c.key < (s.connect path config).state.databases.length := by
    obtain ⟨attached, s', found, key, -, -, -, -, changes, -⟩ := Storage.connected_of_ok known made
    rw [key, changes.length]
    exact ((Storage.attaches_of_attach found).known known).1
  have name := congrArg StoredCollection.name (Storage.database_ingest options
    ((Ingestion.builder options).build (s.connect path config).state.shown)
    (folder.items (s.connect path config).state.shown) (c.stored (s.connect path config).state))
  rw [leads.rows, StoredCollection.rows, name] at rows
  rw [state, StoredCollection.rows]
  refine Eq.trans ?_ rows
  show (((c.keep _ _).database c.key).rows c.collection).toOption.getD [] = _
  rw [c.database_keep _ inside]
  rfl

end Run

end Session

end TextArchive
