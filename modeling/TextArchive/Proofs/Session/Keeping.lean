import TextArchive.Proofs.Ingest.Handover
import TextArchive.Proofs.Session.Attaching
import TextArchive.Proofs.Store.Transaction

/-!
What every operation on a storage keeps: databases hold just what has been inserted, under the
numbers of its order, as long as no batch is given up without a journal, and an operation on one
collection leaves what belongs to the others.
-/

set_option autoImplicit false
set_option relaxedAutoImplicit false

namespace TextArchive

open TextArchive.File (Content Disk Location Node Path)
open TextArchive.Ingest
open TextArchive.Store (Attached Config Connection Database Engine Storage Transacted)

section Held

theorem held_append (before after : List Insertion) (key : Nat) (name : String) :
    held (before ++ after) key name = held before key name ++ held after key name := by
  simp [held, committed]

theorem held_taken (i : Insertion) (taken : i.attempt.result = .ok ()) (key : Nat) (name : String) :
    held [i] key name =
      if i.key = key ∧ Store.Name.same i.collection name = true then i.attempt.records else [] := by
  by_cases concerned : i.key = key ∧ Store.Name.same i.collection name = true
  · simp [held, committed, concerned, taken, Except.isOk, Except.toBool]
  · simp only [concerned, if_false]
    simp only [not_and_or] at concerned
    rcases concerned with other | other <;> simp [held, committed, other]

private theorem held_refused (i : Insertion) {e : Store.StoreError}
    (refused : i.attempt.result = .error e) (key : Nat)
    (name : String) : held [i] key name = [] := by
  by_cases concerned : i.key = key ∧ Store.Name.same i.collection name = true
  · simp [held, committed, concerned, refused, Except.isOk, Except.toBool]
  · simp only [not_and_or] at concerned
    rcases concerned with other | other <;> simp [held, committed, other]

theorem held_map (attempts : List Attempt) (key : Nat) {collection name : String} (journaled : Bool)
    (same : Store.Name.same collection name = true) :
    held (attempts.map (⟨key, collection, journaled, ·⟩)) key name = committed attempts := by
  simp [held, List.filter_map, Function.comp_def, same]

end Held

namespace Store

section Keep

variable (s : Storage) (c : Connection)

theorem Storage.database_setDatabase (key key' : Nat) (db : Database) :
    (s.setDatabase key db).database key' =
      if key = key' ∧ key < s.databases.length then db else s.database key' := by
  simp only [Storage.setDatabase, Storage.database, List.getElem?_set]
  by_cases same : key = key'
  · by_cases inside : key < s.databases.length
    · simp [same ▸ inside, same]
    · simp [same, same ▸ inside]
  · simp [same]

@[simp] theorem Storage.length_setDatabase (key : Nat) (db : Database) :
    (s.setDatabase key db).databases.length = s.databases.length := by
  simp [Storage.setDatabase]

@[simp] theorem Storage.setDatabase_database (key : Nat) :
    s.setDatabase key (s.database key) = s := by
  have same : s.databases.set key (s.database key) = s.databases := by
    refine List.ext_getElem? fun n => ?_
    rw [List.getElem?_set]
    by_cases here : key = n
    · by_cases inside : key < s.databases.length
      · simp [← here, inside, Storage.database]
      · simp [← here, inside]
    · simp [here]
  simp only [Storage.setDatabase, same]

@[simp] theorem Connection.keep_stored : c.keep s (c.stored s) = s :=
  s.setDatabase_database c.key

private theorem Connection.keep_keep (first second : StoredCollection) :
    c.keep (c.keep s first) second = c.keep s second := by
  simp [Connection.keep, Storage.setDatabase]

@[simp] theorem Connection.length_keep (done : StoredCollection) :
    (c.keep s done).databases.length = s.databases.length :=
  s.length_setDatabase c.key done.database

theorem Connection.database_keep {done : StoredCollection} (known : c.key < s.databases.length) :
    (c.keep s done).database c.key = done.database := by
  simp [Connection.keep, Storage.database_setDatabase, known]

end Keep

namespace Storage

/-- A storage of collections that hold just what has been inserted into them, as long as no batch
has been given up without a journal. -/
structure Keeps (s : Storage) (insertions : List Insertion) : Prop where
  known : ∀ key ∈ s.disk.storedKeys, key < s.databases.length
  sound : ∀ key, (s.database key).Sound
  holds : ∀ key, AreWhole insertions key → (s.database key).Holds (held insertions key)
  taken : ∀ i ∈ insertions, i.attempt.result = .ok () → (s.database i.key).IsCollection i.collection

/-- A change of a storage that concerns the collections of one name. -/
structure Change (collection : String) (s s' : Storage) : Prop where
  grows : s.databases.length ≤ s'.databases.length
  databases : ∀ key, Database.Change collection (s.database key) (s'.database key)

theorem Change.refl (collection : String) (s : Storage) : Change collection s s :=
  ⟨Nat.le_refl _, fun _ => .refl collection _⟩

private theorem Change.trans {collection : String} {s s' s'' : Storage}
    (first : Change collection s s')
    (second : Change collection s' s'') : Change collection s s'' :=
  ⟨Nat.le_trans first.grows second.grows,
    fun key => (first.databases key).trans (second.databases key)⟩

private theorem Change.setDatabase {collection : String} {s : Storage} {key : Nat} {db : Database}
    (change : Database.Change collection (s.database key) db) :
    Change collection s (s.setDatabase key db) where
  grows := by simp
  databases := by
    intro key'
    rw [database_setDatabase]
    split
    · rename_i here
      rw [← here.1]
      exact change
    · exact .refl collection _

variable {s : Storage} {insertions : List Insertion}

theorem areWhole_append {before after : List Insertion} {key : Nat} :
    AreWhole (before ++ after) key ↔ AreWhole before key ∧ AreWhole after key := by
  simp only [AreWhole, List.mem_append, or_imp, forall_and]

private theorem Keeps.setDatabase {collection : String} {key : Nat} {db : Database}
    (keeps : s.Keeps insertions) (known : key < s.databases.length)
    (change : Database.Change collection (s.database key) db) (sound : db.Sound)
    {more : List Insertion} (here : ∀ i ∈ more, i.key = key)
    (holds : AreWhole (insertions ++ more) key → db.Holds (held (insertions ++ more) key))
    (taken : ∀ i ∈ more, i.attempt.result = .ok () → db.IsCollection i.collection) :
    (s.setDatabase key db).Keeps (insertions ++ more) where
  known := by simpa [Storage.setDatabase] using keeps.known
  sound := by
    intro key'
    rw [database_setDatabase]
    split
    · exact sound
    · exact keeps.sound key'
  holds := by
    intro key' whole
    rw [database_setDatabase]
    by_cases same : key = key'
    · subst same
      simpa [known] using holds whole
    · have apart : held (insertions ++ more) key' = held insertions key' := by
        funext name
        have nothing : more.filter (fun i => i.key = key' && Name.same i.collection name) = [] := by
          refine List.filter_eq_nil_iff.mpr fun i member => ?_
          simp [here i member, same]
        rw [held_append]
        simp [held, nothing, committed]
      simpa [same, apart] using keeps.holds key' (areWhole_append.mp whole).1
  taken := by
    intro i member ok
    rw [database_setDatabase]
    rcases List.mem_append.mp member with before | now
    · have collection := keeps.taken i before ok
      split
      · rename_i same
        exact change.collections _ (same.1 ▸ collection)
      · exact collection
    · simpa [here i now, known] using taken i now ok

private theorem Keeps.setDatabase_same {collection : String} {key : Nat} {db : Database}
    (keeps : s.Keeps insertions) (known : key < s.databases.length)
    (change : Database.Change collection (s.database key) db) (sound : db.Sound)
    (holds : AreWhole insertions key → db.Holds (held insertions key)) :
    (s.setDatabase key db).Keeps insertions := by
  have kept : (s.setDatabase key db).Keeps (insertions ++ []) :=
    keeps.setDatabase known change sound (by simp) (by simpa using holds) (by simp)
  rwa [List.append_nil] at kept

variable {c : Connection} {sc : StoredCollection}

private theorem holds_insertBatch [Engine] {key : Nat}
    (holds : sc.database.Holds (held insertions key)) (records : List Record)
    (whole : Insertion.isWhole ⟨key, sc.name, sc.unjournaled.isNone, records,
      (FullTextCollection.insertBatch sc records).1⟩ = true) :
    (FullTextCollection.insertBatch sc records).2.database.Holds
      (held (insertions ++ [⟨key, sc.name, sc.unjournaled.isNone, records,
        (FullTextCollection.insertBatch sc records).1⟩]) key) := by
  cases result : (FullTextCollection.insertBatch sc records).1 with
  | ok _ =>
    have ok : ((Transacted.settled sc.database sc.unjournaled).insertBatch sc.name records).1
      = .ok () := result
    have grown : held (insertions ++ [⟨key, sc.name, sc.unjournaled.isNone, records, .ok ()⟩]) key =
        fun name => if Name.same sc.name name then held insertions key name ++ records
          else held insertions key name := by
      funext name
      rw [held_append, held_taken _ rfl]
      by_cases concerned : Name.same sc.name name = true <;> simp [concerned]
    rw [grown]
    exact Transacted.insertBatch_holds holds ok
  | error e =>
    have journaled : sc.unjournaled = none := by
      simpa [Insertion.isWhole, result, Except.isOk, Except.toBool] using whole
    have unchanged : (FullTextCollection.insertBatch sc records).2.database = sc.database :=
      congrArg Transacted.committed ((Transacted.insertBatch_settled sc.database sc.unjournaled
        sc.name records).2 journaled e result)
    have same : held (insertions ++ [⟨key, sc.name, sc.unjournaled.isNone, records, .error e⟩]) key =
        held insertions key := by
      funext name
      rw [held_append, held_refused _ rfl, List.append_nil]
    rw [same, unchanged]
    exact holds

/-- Handing over a batch adds its records if it is taken. If it is refused, it changes nothing,
unless there is no journal. -/
theorem Keeps.insertBatch [Engine] (keeps : (c.keep s sc).Keeps insertions)
    (known : c.key < s.databases.length) (name : sc.name = c.collection) (records : List Record) :
    let answered := FullTextCollection.insertBatch sc records
    (c.keep s answered.2).Keeps
        (insertions ++ [⟨c.key, c.collection, sc.unjournaled.isNone, records, answered.1⟩]) ∧
      Change c.collection (c.keep s sc) (c.keep s answered.2) := by
  intro answered
  have inside : c.key < (c.keep s sc).databases.length := by simpa using known
  have here : (c.keep s sc).database c.key = sc.database := c.database_keep s known
  have again : c.keep s answered.2 = (c.keep s sc).setDatabase c.key answered.2.database :=
    (c.keep_keep s sc answered.2).symm
  obtain ⟨change, after, collection⟩ :=
    Transacted.insertBatch_sound (here ▸ keeps.sound c.key) sc.unjournaled
    sc.name records
  have changed : Database.Change c.collection ((c.keep s sc).database c.key)
    answered.2.database := by
    rw [here, ← name]
    exact change
  rw [again]
  refine ⟨keeps.setDatabase inside changed after (by simp) (fun whole => ?_) fun i member ok => ?_,
    .setDatabase changed⟩
  · obtain ⟨before, now⟩ := areWhole_append.mp whole
    have last := now _ List.mem_cons_self rfl
    rw [← name] at last ⊢
    exact holds_insertBatch (here ▸ keeps.holds c.key before) records last
  · rw [List.mem_singleton.mp member] at ok ⊢
    rw [← name]
    exact change.collections _ (collection ok)

private theorem Keeps.after (keeps : (c.keep s sc).Keeps insertions)
    (known : c.key < s.databases.length) (name : sc.name = c.collection)
    {result : Except StoreError Database}
    (changed : ∀ db, result = .ok db → sc.database.Sound → Database.Change sc.name sc.database db ∧ db.Sound)
    (holds : ∀ db held, result = .ok db → sc.database.Holds held → db.Holds held) :
    (c.keep s (sc.after result).2).Keeps insertions ∧
      Change c.collection (c.keep s sc) (c.keep s (sc.after result).2) := by
  cases result with
  | error e => exact ⟨keeps, .refl _ _⟩
  | ok db =>
    have here : (c.keep s sc).database c.key = sc.database := c.database_keep s known
    obtain ⟨change, sound⟩ := changed db rfl (here ▸ keeps.sound c.key)
    have again : c.keep s (sc.after (.ok db)).2 = (c.keep s sc).setDatabase c.key db :=
      (c.keep_keep s sc { sc with database := db }).symm
    have change' : Database.Change c.collection ((c.keep s sc).database c.key) db :=
      here.symm ▸ name ▸ change
    rw [again]
    exact ⟨keeps.setDatabase_same (by simpa using known) change' sound
      fun whole => holds db _ rfl (here ▸ keeps.holds c.key whole), .setDatabase change'⟩

theorem Keeps.take [Engine] (keeps : (c.keep s sc).Keeps insertions)
    (known : c.key < s.databases.length) (name : sc.name = c.collection) (weights : Weights)
    (step : MaintenanceStep) :
    (c.keep s (Maintenance.take weights sc step).2).Keeps insertions ∧
      Change c.collection (c.keep s sc) (c.keep s (Maintenance.take weights sc step).2) := by
  cases step with
  | setRank => exact keeps.after known name (fun _ set sound => sound.setRank set) fun _ _ set holds
    => holds.setRank set
  | rebuild =>
    exact keeps.after known name
      (fun _ built sound => sound.rebuild built) fun _ _ built holds => holds.rebuild built
  | optimize =>
    exact keeps.after known name
      (fun _ made sound => sound.optimize made) fun _ _ made holds => holds.optimize made

/-- How far an activity on the collection of a connection has come that started from a storage. -/
structure Along (c : Connection) (s : Storage) (insertions : List Insertion)
    (r : Recorded StoredCollection) :
    Prop where
  name : r.collection.name = c.collection
  unjournaled : r.collection.unjournaled = c.unjournaled s
  keeps : (c.keep s r.collection).Keeps
    (insertions ++ r.attempts.map (⟨c.key, c.collection, Session.isJournaled s c, ·⟩))
  change : Change c.collection s (c.keep s r.collection)

private theorem Along.start (keeps : s.Keeps insertions) :
    Along c s insertions (.start (c.stored s)) where
  name := rfl
  unjournaled := rfl
  keeps := by simpa [Recorded.start, Recorded.attempts] using keeps
  change := by simpa [Recorded.start] using Change.refl c.collection s

section Engine

variable [Engine]

private theorem database_take (weights : Weights) (collection : StoredCollection)
    (step : MaintenanceStep) :
    (Maintenance.take weights collection step).2 =
      { collection with database := (Maintenance.take weights collection step).2.database } := by
  have after : ∀ result, (collection.after result).2
    = { collection with database := (collection.after result).2.database } := by
    intro result
    cases result <;> rfl
  cases step <;> exact after _

theorem database_ingest (options : Options) (build : File.Path → BuiltRecord)
    (source : List SourceItem) (collection : StoredCollection) :
    (Ingestion.ingest options build source collection).state =
      { collection with database := (Ingestion.ingest options build source collection).state.database } :=
  @ingest_preserves _ _
    (fun done : StoredCollection => done = { collection with database := done.database }) options
    (fun c records same => by rw [same]; rfl)
    (fun done step same => by
      have kept := database_take options.weights done step
      generalize (Maintenance.take options.weights done step).2 = left at kept ⊢
      rw [kept, same])
    collection rfl build source

private theorem Along.insertBatch (known : c.key < s.databases.length)
    (r : Recorded StoredCollection) (records : List Record) (along : Along c s insertions r) :
    Along c s insertions (FullTextCollection.insertBatch r records).2 := by
  have next := along.keeps.insertBatch known along.name records
  refine ⟨along.name, along.unjournaled, ?_, along.change.trans next.2⟩
  rw [attempts_insertBatch, List.map_append, ← List.append_assoc]
  have kept := next.1
  rw [along.unjournaled] at kept
  exact kept

private theorem Along.take (known : c.key < s.databases.length) {weights : Weights}
    (r : Recorded StoredCollection) (step : MaintenanceStep) (along : Along c s insertions r) :
    Along c s insertions (Maintenance.take weights r step).2 := by
  have next := along.keeps.take known along.name weights step
  have view : (Maintenance.take weights r step).2.collection
    = (Maintenance.take weights r.collection step).2 :=
    (congrArg Prod.snd (alike_collection.map_takeStep weights r step)).symm
  have kept := database_take weights r.collection step
  rw [← view] at next kept
  refine ⟨?_, ?_, ?_, along.change.trans next.2⟩
  · rw [kept]
    exact along.name
  · rw [kept]
    exact along.unjournaled
  · rw [attempts_take]
    exact next.1

theorem Keeps.ingest (keeps : s.Keeps insertions) (known : c.key < s.databases.length)
    (options : Options) (source : Disk → List SourceItem) :
    let done := (Ingestion.ingestConnected options source s c).state
    done.Keeps (insertions ++ Session.ingestInsertions options source s c) ∧
      Change c.collection s done := by
  have along := ingest_preserves options (Along.insertBatch known) (Along.take known)
    (Along.start keeps) ((Ingestion.builder options).build s.shown) (source s.shown)
  have same : (Ingestion.ingestConnected options source s c).state = c.keep s
    (Ingestion.ingest options
      ((Ingestion.builder options).build s.shown) (source s.shown)
        (Recorded.start (c.stored s))).state.collection := by
    simp only [Ingestion.ingestConnected, Outcome.mapState]
    rw [ingest_start]
    rfl
  rw [same]
  exact ⟨along.keeps, along.change⟩

theorem Keeps.maintain (keeps : s.Keeps insertions) (known : c.key < s.databases.length)
    (weights : Weights) :
    let done := c.keep s (Maintenance.run weights (c.stored s)).2.2
    done.Keeps insertions ∧ Change c.collection s done := by
  have along := maintenance_preserves weights (Along.take known) (Along.start (c := c) keeps)
  have none_handed : (Maintenance.run weights (Recorded.start (c.stored s))).2.2.attempts = [] :=
    attempts_takeAll weights MaintenanceStep.order (Recorded.start (c.stored s))
  have view : (Maintenance.run weights (Recorded.start (c.stored s))).2.2.collection =
      (Maintenance.run weights (c.stored s)).2.2 :=
    (congrArg Prod.snd (alike_collection.map_takeSteps weights MaintenanceStep.order
      (Recorded.start (c.stored s)))).symm
  have kept := along.keeps
  rw [none_handed, List.map_nil, List.append_nil] at kept
  rw [← view]
  exact ⟨kept, along.change⟩

end Engine

section Connect

variable {s' : Storage}

private theorem Keeps.attaches {path : File.Path} {attached : Attached} (keeps : s.Keeps insertions)
    (attaches : Attaches s path attached s') :
    s'.Keeps insertions ∧ attached.key < s'.databases.length ∧
    ∀ collection, Change collection s s' := by
  obtain ⟨known, stored⟩ := attaches.known keeps.known
  have same : ∀ key, s'.database key = s.database key := attaches.database
  exact ⟨⟨stored, fun key => same key ▸ keeps.sound key,
    fun key whole => same key ▸ keeps.holds key whole,
    fun i member ok => same i.key ▸ keeps.taken i member ok⟩, known,
    fun collection => ⟨attaches.grows, fun key => same key ▸ .refl collection _⟩⟩

/-- What is kept when a connection to a collection is asked for: the same databases, but for an
empty collection that may have been made. -/
structure Connects (collection : String) (s : Storage) (insertions : List Insertion)
    (made : Outcome Storage Connection) : Prop where
  keeps : made.state.Keeps insertions
  change : Change collection s made.state
  known : ∀ c, made.result = .ok c → c.key < made.state.databases.length
  name : ∀ c, made.result = .ok c → c.collection = collection

private theorem Connects.failed {collection : String} {e : IngestError}
    (keeps : s'.Keeps insertions)
    (change : Change collection s s') : Connects collection s insertions (.failed s' e) :=
  ⟨keeps, change, nofun, nofun⟩

private theorem Keeps.setWriteAhead {key : Nat} (keeps : s.Keeps insertions)
    (known : key < s.databases.length) (mode : JournalMode) (collection : String) :
    (s.setWriteAhead key mode).Keeps insertions ∧
    Change collection s (s.setWriteAhead key mode) := by
  have switched := Database.Change.withWriteAhead collection (s.database key) (mode = .wal)
  exact ⟨keeps.setDatabase_same known switched ((keeps.sound key).withWriteAhead (mode = .wal))
    fun whole => (keeps.holds key whole).withWriteAhead (mode = .wal), .setDatabase switched⟩

private theorem Keeps.connectAttached {attached : Attached} (keeps : s.Keeps insertions)
    (known : attached.key < s.databases.length) (path : File.Path) (config : Config) :
    Connects config.collection s insertions (s.connectAttached path config attached) := by
  simp only [Storage.connectAttached]
  generalize s.modeFor attached config.pragmas = mode
  obtain ⟨kept, change⟩ := keeps.setWriteAhead known mode config.collection
  have inside : attached.key < (s.setWriteAhead attached.key mode).databases.length :=
    Nat.lt_of_lt_of_le known change.grows
  generalize s.setWriteAhead attached.key mode = s₁ at kept change inside
  cases created :
    (s₁.database attached.key).createCollection config.collection config.tokenizer with
  | error e => exact ⟨kept, change, nofun, nofun⟩
  | ok db =>
    dsimp only
    split
    · exact ⟨kept, change, nofun, nofun⟩
    have new : Database.Change config.collection (s₁.database attached.key) db ∧ db.Sound ∧
        (AreWhole insertions attached.key → db.Holds (held insertions attached.key)) := by
      refine ⟨?_, (kept.sound attached.key).createCollection created, fun whole =>
        (kept.holds attached.key whole).createCollection created⟩
      rcases Database.createCollection_cases created with ⟨rfl, -⟩ | ⟨-, -, tokenizer, -, rfl⟩
      · exact .refl _ _
      · exact .add
    have grown := kept.setDatabase_same inside new.1 new.2.1 new.2.2
    refine ⟨⟨grown.known, grown.sound, grown.holds, grown.taken⟩, change.trans ?_, ?_, ?_⟩
    · have last := Change.setDatabase new.1
      exact ⟨last.grows, last.databases⟩
    · rintro _ ⟨⟩
      simpa using inside
    · rintro _ ⟨⟩
      rfl

theorem Keeps.connect (keeps : s.Keeps insertions) (path : File.Path) (config : Config) :
    Connects config.collection s insertions (s.connect path config) := by
  unfold Storage.connect
  split
  · exact .failed keeps (.refl _ s)
  split
  · exact .failed keeps (.refl _ s)
  rename_i attached s₁ found
  obtain ⟨kept, known, change⟩ := keeps.attaches (attaches_of_attach found)
  split
  · exact .failed kept (change _)
  split
  · obtain ⟨last, changed⟩ :=
      kept.setWriteAhead known (s₁.modeFor attached config.pragmas) config.collection
    exact .failed last ((change _).trans changed)
  · obtain ⟨last, changed, inside, name⟩ := kept.connectAttached known path config
    exact ⟨last, (change _).trans changed, inside, name⟩

theorem Keeps.connectExisting (keeps : s.Keeps insertions) (path : File.Path)
    (collection : String) :
    Connects collection s insertions (s.connectExisting path collection) := by
  unfold Storage.connectExisting
  split
  · exact .failed keeps (.refl _ s)
  split
  · exact .failed keeps (.refl _ s)
  · rename_i attached s₁ found
    obtain ⟨kept, known, change⟩ := keeps.attaches (attaches_of_attach found)
    split
    · refine ⟨⟨kept.known, kept.sound, kept.holds, kept.taken⟩,
        ⟨(change collection).grows, (change collection).databases⟩, ?_, ?_⟩
      · rintro _ ⟨⟩
        exact known
      · rintro _ ⟨⟩
        rfl
    · exact .failed kept (change _)

/-- A run adds the records of the batches that were taken, however it ends. -/
theorem Keeps.run [Engine] (keeps : s.Keeps insertions) (options : Options) (root path : File.Path)
    (config : Config) :
    let done := (Ingestion.run options root path config s).state
    done.Keeps (insertions ++ Session.runInsertions options root path config s) ∧
      Change config.collection s done := by
  have unchanged : s.Keeps (insertions ++ []) ∧ Change config.collection s s := by
    rw [List.append_nil]
    exact ⟨keeps, .refl _ s⟩
  unfold Ingestion.run Session.runInsertions
  cases options.validate with
  | error e => exact unchanged
  | ok _ =>
    cases Folder.ofPath s.shown root with
    | error e => exact unchanged
    | ok folder =>
      have made := keeps.connect path config
      generalize s.connect path config = connected at made ⊢
      rcases connected with ⟨events, s₁, e | c⟩
      · simpa [Outcome.andThen] using ⟨made.keeps, made.change⟩
      · obtain ⟨kept, change⟩ := made.keeps.ingest (made.known c rfl) options folder.items
        rw [made.name c rfl] at change
        refine ⟨⟨kept.known, kept.sound, kept.holds, kept.taken⟩,
          made.change.trans ⟨change.grows, change.databases⟩⟩

end Connect

end Storage

end Store

end TextArchive
