import TextArchive.Proofs.Session.Keeping

/-!
Collections are append-only: whatever sequence of operations has been carried out, the rows of a
collection are the records of the batches that it took, in the order of the calls, unless a batch
has been given up without a journal; and operations on one collection do not show in another.
-/

set_option autoImplicit false
set_option relaxedAutoImplicit false

namespace TextArchive.Session

open TextArchive.File (Disk Path)
open TextArchive.Ingest
open TextArchive.Store (Connection Database Engine Storage)

/-- A session whose storage holds just what has been inserted, and whose connections lead to its
databases. -/
structure Sound (s : Session) : Prop where
  keeps : s.storage.Keeps s.insertions
  known : ∀ c ∈ s.connections, c.key < s.storage.databases.length

private theorem sound_start {disk : Disk} (plain : disk.storedKeys = []) : (start disk).Sound where
  keeps :=
    { known := by simp [start, Storage.ofDisk, plain]
      sound := fun _ => Database.sound_empty
      holds := fun _ _ => Database.holds_empty
      taken := by simp [start] }
  known := by simp [start]

private theorem Sound.changeFiles {s : Session} (sound : s.Sound) {disk : Disk}
    (known : ∀ key ∈ disk.storedKeys, key ∈ s.storage.disk.storedKeys) :
    Sound { s with storage := { s.storage with disk } } :=
  ⟨⟨fun key member => sound.keeps.known key (known key member),
    sound.keeps.sound, sound.keeps.holds, sound.keeps.taken⟩, sound.known⟩

section Step

variable [Engine] {s : Session} (sound : s.Sound)
include sound

omit [Engine] in
private theorem Sound.goOn {storage : Storage} {insertions : List Insertion} {collection : String}
    (done : storage.Keeps insertions ∧ Storage.Change collection s.storage storage) :
    Sound ⟨storage, s.connections, insertions⟩ ∧ Storage.Change collection s.storage storage :=
  ⟨⟨done.1, fun c member => Nat.lt_of_lt_of_le (sound.known c member) done.2.grows⟩, done.2⟩

private theorem Sound.use (n : Nat) {c : Connection} (member : c ∈ s.connections) (use : Use) :
    (s.use n c use).Sound ∧ Storage.Change c.collection s.storage (s.use n c use).storage := by
  have known := sound.known c member
  have unchanged : c.keep s.storage (c.stored s.storage) = s.storage := c.keep_stored s.storage
  have keeps : (c.keep s.storage (c.stored s.storage)).Keeps s.insertions :=
    unchanged.symm ▸ sound.keeps
  have take : ∀ weights step,
    Sound ⟨c.keep s.storage (Maintenance.take weights (c.stored s.storage) step).2,
      s.connections, s.insertions⟩ ∧ Storage.Change c.collection s.storage
        (c.keep s.storage (Maintenance.take weights (c.stored s.storage) step).2) := by
    intro weights step
    have done := keeps.take known rfl weights step
    rw [unchanged] at done
    exact sound.goOn done
  cases use with
  | insertBatch records =>
    have done := keeps.insertBatch known rfl records
    rw [unchanged] at done
    exact sound.goOn done
  | setRank weights => exact take weights .setRank
  | rebuild => exact take .standard .rebuild
  | optimize => exact take .standard .optimize
  | maintain weights => exact sound.goOn (sound.keeps.maintain known weights)
  | ingest options source => exact sound.goOn (sound.keeps.ingest known options source)
  | search text topK => exact ⟨sound, .refl _ _⟩
  | count => exact ⟨sound, .refl _ _⟩
  | close =>
    refine ⟨⟨⟨sound.keeps.known, sound.keeps.sound, sound.keeps.holds, sound.keeps.taken⟩, ?_⟩,
      ⟨Nat.le_refl _, fun _ => .refl _ _⟩⟩
    exact fun d here => sound.known d (List.mem_of_mem_eraseIdx here)

omit [Engine] in
private theorem Sound.connected {made : Outcome Storage Connection} {collection : String}
    (connects : Storage.Connects collection s.storage s.insertions made) :
    (s.connected made).Sound ∧ Storage.Change collection s.storage (s.connected made).storage := by
  refine ⟨⟨connects.keeps, fun c member => ?_⟩, connects.change⟩
  rcases List.mem_append.mp member with before | new
  · exact Nat.lt_of_lt_of_le (sound.known c before) connects.change.grows
  · cases result : made.result with
    | error e => simp [result, Except.toOption] at new
    | ok d =>
      have same : c = d := by simpa [result, Except.toOption] using new
      rw [same]
      exact connects.known d result

/-- Every operation keeps a session sound and concerns the collection that it is about, if there is
one. -/
theorem Sound.perform (operation : Operation) :
    (s.perform operation).Sound ∧ (s.perform operation = s ∨ ∃ collection ∈ s.subject? operation,
      Storage.Change collection s.storage (s.perform operation).storage) := by
  cases operation with
  | connect path config =>
    obtain ⟨next, change⟩ := sound.connected (sound.keeps.connect path config)
    exact ⟨next, .inr ⟨_, rfl, change⟩⟩
  | connectExisting path collection =>
    obtain ⟨next, change⟩ := sound.connected (sound.keeps.connectExisting path collection)
    exact ⟨next, .inr ⟨_, rfl, change⟩⟩
  | run options root path config =>
    obtain ⟨next, change⟩ := sound.goOn (sound.keeps.run options root path config)
    exact ⟨next, .inr ⟨_, rfl, change⟩⟩
  | use n use =>
    cases found : s.connections[n]? with
    | none => simp [Session.perform, found, sound]
    | some c =>
      obtain ⟨next, change⟩ := sound.use n (List.mem_of_getElem? found) use
      simp only [Session.perform, subject?, found, Option.elim_some, Option.map_some]
      exact ⟨next, .inr ⟨_, rfl, change⟩⟩

end Step

section Reachable

variable [Engine] {s : Session} (reachable : s.Reachable)
include reachable

theorem Reachable.performAll (operations : List Operation) :
    (operations.foldl Session.perform s).Reachable := by
  induction operations generalizing s with
  | nil => exact reachable
  | cons operation operations ih => exact ih (reachable.perform operation)

theorem Reachable.sound : s.Sound := by
  induction reachable with
  | start disk plain => exact sound_start plain
  | perform _ operation ih => exact (ih.perform operation).1
  | changeFiles _ disk known ih => exact ih.changeFiles known

end Reachable

private theorem answers_beside {db db' : Database} (sound : db.Sound) {collection name : String}
    (change : Database.Change collection db db') (apart : Store.Name.same collection name = false)
    (there : db.IsCollection name) :
    db'.rows name = db.rows name ∧ db'.rankConfig name = db.rankConfig name ∧
      ∀ opened text topK, searchAfter opened db' name text topK =
      searchAfter opened db name text topK := by
  obtain ⟨t, -, found, -⟩ := there
  have other : Store.Name.same t.name collection = false := by
    rw [Store.Name.same_comm, Store.Name.same_congr (Database.same_of_find?_table found), apart]
  have beside : ∀ asked named, db.find? asked = some named → named.owner = t →
      db'.merged.find? asked = db.merged.find? asked := by
    rintro asked named here rfl
    have merged : db.merged.find? asked = some
      (named.change (Store.Table.reindex Store.Indexing.merge)) := by
      rw [Database.find?_merged, here, Option.map_some]
    rw [merged, change.beside asked _ merged (by simpa using other)]
  have table := beside name _ found rfl
  have config := beside _ _ (sound.owns name t found .config) rfl
  refine ⟨?_, ?_, fun opened text topK => ?_⟩
  · rw [← db'.rows_reindex name Store.Indexing.merge, ← db.rows_reindex name Store.Indexing.merge]
    exact Database.rows_congr table
  · rw [← db'.rankConfig_merged name, ← db.rankConfig_merged name]
    exact Database.rankConfig_congr config
  · rw [← db'.searchAfter_merged name, ← db.searchAfter_merged name]
    exact Database.searchAfter_congr table opened text topK

/-- At every moment of a session, the rows of a collection are the records of the batches that it
took, in the order of the calls and numbered from one on, provided that a journal was kept for every
batch which the database refused; only collections take batches. No operation takes a collection
away, and what an operation on a collection does shows neither in the rows nor in the rank
expression nor in the search answers of another one. -/
theorem collections_append_only [Engine] {s : Session} (reachable : s.Reachable) (key : Nat) :
    let db := s.storage.database key
    (AreWhole s.insertions key → ∀ name, db.IsCollection name →
      db.rows name = .ok ((held s.insertions key name).mapIdx fun n r =>
        ⟨n + 1, r.title, r.sourcePath, r.content, r.tag, r.deletedAt.map Timestamp.text⟩)) ∧
    (∀ i ∈ s.insertions, i.key = key → i.attempt.result = .ok () → db.IsCollection i.collection) ∧
    ∀ operation,
      let db' := (s.perform operation).storage.database key
      (∀ name, db.IsCollection name → db'.IsCollection name) ∧
      ∀ name, db.IsCollection name →
        (∀ collection ∈ s.subject? operation, Store.Name.same collection name = false) →
        db'.rows name = db.rows name ∧ db'.rankConfig name = db.rankConfig name ∧
          ∀ opened text topK, searchAfter opened db' name text topK =
            searchAfter opened db name text topK := by
  intro db
  have keeps := reachable.sound.keeps
  refine ⟨?_, ?_, fun operation => ?_⟩
  · rintro whole name ⟨t, -, found, -⟩
    have rows := (keeps.holds key whole).rows name t found
    rw [Database.rows, found]
    simp only [rows, Store.Row.numberedFrom, Store.Row.ofRecord, Nat.add_comm]
  · rintro i member rfl ok
    exact keeps.taken i member ok
  · intro db'
    rcases (reachable.sound.perform operation).2 with same | ⟨collection, subject, change⟩
    · have unchanged : db' = db := by simp only [db', db, same]
      rw [unchanged]
      exact ⟨fun _ there => there, fun _ _ _ => ⟨rfl, rfl, fun _ _ _ => rfl⟩⟩
    · exact ⟨(change.databases key).collections, fun name there apart =>
        answers_beside (keeps.sound key) (change.databases key) (apart collection subject) there⟩

/-- Two batches with a command between them, and another database with a collection of another name
made after them. -/
theorem append_only_of_two_batches :
    let operations :
    List Operation := [.connect Storage.memoryPath {}, .use 0 (.insertBatch [{ title := "a" }]),
      .use 0 .rebuild, .use 0 (.insertBatch [{ title := "b" }, { title := "c" }])]
    let s := operations.foldl perform (start ⟨[], []⟩)
    let later := s.perform (.connect Storage.memoryPath { collection := "notes" })
    s.Reachable ∧ AreWhole s.insertions 0 ∧ (s.storage.database 0).IsCollection "documents" ∧
      (s.storage.database 0).rows "documents" =
        .ok [⟨1, "a", "", "", "", none⟩, ⟨2, "b", "", "", "", none⟩, ⟨3, "c", "", "", "", none⟩] ∧
      (later.storage.database 0).rows "documents" = (s.storage.database 0).rows "documents" := by
  intro operations s later
  have reachable : s.Reachable := (Reachable.start ⟨[], []⟩ rfl).performAll operations
  have whole : AreWhole s.insertions 0 := by decide +kernel
  have there : (s.storage.database 0).IsCollection "documents" := by decide +kernel
  obtain ⟨rows, -, step⟩ := collections_append_only reachable 0
  have taken : held s.insertions 0 "documents" = [{ title := "a" }, { title := "b" },
    { title := "c" }] := by
    decide +kernel
  refine ⟨reachable, whole, there, (rows whole "documents" there).trans (by rw [taken]; rfl), ?_⟩
  exact
    ((step (.connect Storage.memoryPath { collection := "notes" })).2 "documents" there (by decide +kernel)).1

/-- Without a journal, the first record of a batch stays although the database refuses the second
one. -/
theorem refused_batch_left_without_journal :
    let _ : Engine :=
      { Engine.standard with refuses? := fun _ r => if r.title = "b" then some ⟨.tooBig,
        false⟩ else none }
    let operations : List Operation :=
      [.connect Storage.memoryPath { pragmas := { journalMode := "OFF" } },
      .use 0 (.insertBatch [{ title := "a" }, { title := "b" }])]
    let s := operations.foldl perform (start ⟨[], []⟩)
    s.Reachable ∧ s.insertions.map (·.attempt.result) = [.error .tooBig] ∧
      (s.storage.database 0).IsCollection "documents" ∧
      (s.storage.database 0).rows "documents" = .ok [⟨1, "a", "", "", "", none⟩] := by
  intro _ operations s
  exact ⟨(Reachable.start ⟨[], []⟩ rfl).performAll operations, by decide +kernel,
    by decide +kernel, by decide +kernel⟩

end TextArchive.Session
