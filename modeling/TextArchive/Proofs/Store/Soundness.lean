import TextArchive.Proofs.Store.Index

/-!
Databases of collections, each with the tables of its index, and changes that concern one of them:
what belongs to every other one stays but for the segments of its index.
-/

set_option autoImplicit false
set_option relaxedAutoImplicit false

namespace TextArchive.Store

namespace Table

theorem find?_tableName {t : Table} (indexed : ∃ indexing, t.kind = .indexed indexing)
    {name : String} (own : Name.same t.name name = true) (part : Auxiliary) :
    t.find? (part.tableName name) = some (.auxiliary t part) := by
  have parted : ∀ a : Auxiliary,
      Name.same (a.tableName t.name) (part.tableName name) = decide (a = part) := by
    intro a
    by_cases h : a = part
    · simp [h, Auxiliary.same_tableName, own]
    · exact (Bool.eq_false_iff.mpr fun same => h (Auxiliary.same_tableName.mp same).1).trans
        (by simp [h])
  have other : Name.same t.name (part.tableName name) = false := by
    have apart := Auxiliary.not_same_tableName t.name part
    rwa [Name.same_congr (Auxiliary.same_tableName.mpr ⟨rfl, own⟩)] at apart
  simp only [find?, other, auxiliaries_of_indexed indexed, parted]
  cases part <;> rfl

end Table

namespace Database

/-- A database that has collections alone, each of which has kept the names of its index. -/
structure Sound (db : Database) : Prop where
  indexed : ∀ t ∈ db.tables, ∃ indexing, t.kind = .indexed indexing
  owns : ∀ name t, db.find? name = some (.table t) → ∀ part,
    db.find? (Auxiliary.tableName name part) = some (.auxiliary t part)

/-- A change that concerns one collection: what belongs to the others stays but for the segments of
their indexes, and no collection is lost. -/
structure Change (collection : String) (db db' : Database) : Prop where
  beside : ∀ name found, db.merged.find? name = some found →
    Name.same found.owner.name collection = false →
    db'.merged.find? name = some found
  collections : ∀ name, db.IsCollection name → db'.IsCollection name

theorem sound_empty : empty.Sound :=
  ⟨by simp [empty], by simp [empty, find?]⟩

theorem Change.refl (collection : String) (db : Database) : Change collection db db :=
  ⟨fun _ _ found _ => found, fun _ h => h⟩

theorem Change.trans {collection : String} {db db' db'' : Database}
    (first : Change collection db db')
    (second : Change collection db' db'') : Change collection db db'' :=
  ⟨fun name found h apart => second.beside name found (first.beside name found h apart) apart,
    fun name h => second.collections name (first.collections name h)⟩

theorem find?_merged (db : Database) (name : String) :
    db.merged.find? name = (db.find? name).map (Named.change (Table.reindex Indexing.merge)) :=
  db.find?_reindex _ name

theorem isCollection_reindex {db : Database} (change : Indexing → Indexing) {name : String}
    (there : db.IsCollection name) : (db.reindex change).IsCollection name := by
  obtain ⟨t, indexing, found, kind⟩ := there
  refine ⟨t.reindex change, change indexing, ?_, by rw [Table.reindex_of_indexed change kind]⟩
  rw [find?_reindex, found]
  rfl

theorem Change.flush (collection : String) (db : Database) :
    Change collection db (db.reindex Indexing.flush) :=
  ⟨fun name found h _ => by rwa [merged_flush], fun _ there => isCollection_reindex _ there⟩

theorem Sound.isCollection {db : Database} (sound : db.Sound) {name : String} {t : Table}
    (found : db.find? name = some (.table t)) : db.IsCollection name := by
  obtain ⟨indexing, kind⟩ := sound.indexed t (mem_of_find? found).1
  exact ⟨t, indexing, found, kind⟩

theorem Sound.withWriteAhead {db : Database} (sound : db.Sound) (writeAhead : Bool) :
    ({ db with writeAhead } : Database).Sound :=
  ⟨sound.indexed, sound.owns⟩

theorem Change.withWriteAhead (collection : String) (db : Database) (writeAhead : Bool) :
    Change collection db { db with writeAhead } :=
  ⟨fun _ _ found _ => found, fun _ h => h⟩

section Map

variable {db : Database} {f : Table → Table} (sound : db.Sound)
  (keeps : ∀ t ∈ db.tables, (f t).name = t.name ∧ ∃ indexing, (f t).kind = .indexed indexing)
include sound keeps

theorem Sound.find?_map (name : String) :
    ({ db with tables := db.tables.map f } : Database).find? name =
    (db.find? name).map (Named.change f) := by
  refine Database.find?_map db f (fun t member => ?_) name
  obtain ⟨own, indexed⟩ := keeps t member
  exact ⟨own, by rw [Table.auxiliaries_of_indexed indexed,
    Table.auxiliaries_of_indexed (sound.indexed t member)]⟩

theorem Sound.map : ({ db with tables := db.tables.map f } : Database).Sound where
  indexed := by
    intro u member
    obtain ⟨t, before, rfl⟩ := List.mem_map.mp member
    exact (keeps t before).2
  owns := by
    intro name u found part
    rw [sound.find?_map keeps] at found ⊢
    obtain ⟨_ | _, before, changed⟩ := Option.map_eq_some_iff.mp found
    · cases changed
      rw [sound.owns name _ before part]
      rfl
    · cases changed

end Map

section Modify

variable {db : Database} {collection : String} {f : Table → Table} (sound : db.Sound)
  (keeps : ∀ t ∈ db.tables, (f t).name = t.name ∧ ∃ indexing, (f t).kind = .indexed indexing)
include sound keeps

private theorem Sound.keeps_modified (t : Table) (member : t ∈ db.tables) :
    (if Name.same t.name collection then f t else t).name = t.name ∧
      ∃ indexing, (if Name.same t.name collection then f t else t).kind = .indexed indexing := by
  split
  · exact keeps t member
  · exact ⟨rfl, sound.indexed t member⟩

theorem Sound.find?_modify (name : String) :
    (db.modify collection f).find? name =
      (db.find? name).map (Named.change fun t => if Name.same t.name collection then f t else t) :=
  sound.find?_map (sound.keeps_modified keeps) name

theorem Sound.modify : (db.modify collection f).Sound :=
  sound.map (sound.keeps_modified keeps)

theorem Change.modify : Change collection db (db.modify collection f) where
  beside := by
    intro name found before apart
    rw [find?_merged] at before ⊢
    obtain ⟨here, there, rfl⟩ := Option.map_eq_some_iff.mp before
    rw [Named.owner_change, Table.name_reindex] at apart
    rw [sound.find?_modify keeps, there]
    cases here with
    | table t => simp [Named.change, show Name.same t.name collection = false from apart]
    | auxiliary owner part =>
      simp [Named.change, show Name.same owner.name collection = false from apart]
  collections := by
    rintro name ⟨t, indexing, found, -⟩
    refine (sound.modify keeps).isCollection
      (t := if Name.same t.name collection then f t else t) ?_
    rw [sound.find?_modify keeps, found]
    rfl

end Modify

section Tend

variable {db : Database}

theorem Sound.keeps_tended (sound : db.Sound) (change : Table → Indexing → Indexing) (t : Table)
    (member : t ∈ db.tables) :
    (t.reindex (change t)).name = t.name ∧ ∃ indexing,
    (t.reindex (change t)).kind = .indexed indexing :=
  ⟨Table.name_reindex .., Table.indexed_reindex _ (sound.indexed t member)⟩

theorem Sound.reindex (sound : db.Sound) (change : Indexing → Indexing) :
    (db.reindex change).Sound :=
  sound.map fun t member => ⟨Table.name_reindex ..,
    Table.indexed_reindex change (sound.indexed t member)⟩

end Tend

section Create

variable {db db' : Database} {collection specification : String}

/-- Making a collection leaves the database as it is if something of its name is there, or it adds
an empty table with an index whose names are free. -/
theorem createCollection_cases (created : db.createCollection collection specification = .ok db') :
    (db' = db ∧ db.find? collection ≠ none) ∨
    db.find? collection = none ∧ (∀ part, db.find? (Auxiliary.tableName collection part) = none) ∧
      ∃ tokenizer, Index.Tokenizer.ofSpecification specification = .ok tokenizer ∧
        db' = { db with tables :=
          db.tables ++ [⟨collection, .indexed (.empty specification tokenizer), []⟩] } := by
  unfold createCollection addCollection at created
  split at created
  · cases created
  split at created
  · cases created
  split at created
  · cases created
  split at created
  · rename_i there
    cases created
    exact .inl ⟨rfl, fun missing => by simp [missing] at there⟩
  rename_i missing
  split at created
  · cases created
  split at created
  · cases created
  split at created
  · cases created
  rename_i tokenizer chosen
  split at created
  · cases created
  split at created
  · cases created
  rename_i free
  split at created
  · cases created
  cases created
  refine .inr ⟨by simpa using missing, fun part => ?_, tokenizer, chosen, rfl⟩
  have parts := List.find?_eq_none.mp free part (Auxiliary.mem_all part)
  simpa using parts

variable {tokenizer : Index.Tokenizer}

private theorem find?_add (name : String) :
    ({ db with tables :=
      db.tables ++ [⟨collection, .indexed (.empty specification tokenizer), []⟩] } :
        Database).find? name =
      (db.find? name).or
        (Table.find? ⟨collection, .indexed (.empty specification tokenizer), []⟩ name) :=
  find?_append db ⟨collection, .indexed (.empty specification tokenizer), []⟩ name

theorem Change.add :
    Change collection db { db with tables :=
      db.tables ++ [⟨collection, .indexed (.empty specification tokenizer), []⟩] } where
  beside := by
    intro name found before _
    rw [find?_merged] at before ⊢
    obtain ⟨here, there, rfl⟩ := Option.map_eq_some_iff.mp before
    rw [find?_add, there, Option.some_or, Option.map_some]
  collections := by
    rintro name ⟨t, own, before, kind⟩
    exact ⟨t, own, by rw [find?_add, before, Option.some_or], kind⟩

theorem find?_add_self (kind : TableKind) (missing : db.find? collection = none) :
    ({ db with tables := db.tables ++ [⟨collection, kind, []⟩] } : Database).find? collection =
      some (.table ⟨collection, kind, []⟩) := by
  rw [find?_append, missing, Option.none_or]
  simp [Table.find?]

theorem find?_of_createCollection
    (created : db.createCollection collection specification = .ok db') :
    db'.find? collection ≠ none := by
  rcases createCollection_cases created with ⟨rfl, there⟩ | ⟨missing, -, tokenizer, -, rfl⟩
  · exact there
  · simp [find?_add_self _ missing]

theorem Sound.add (sound : db.Sound)
    (free : ∀ part, db.find? (Auxiliary.tableName collection part) = none) :
    ({ db with tables := db.tables ++ [⟨collection, .indexed (.empty specification tokenizer), []⟩] } : Database).Sound where
  indexed := by
    intro t member
    rcases List.mem_append.mp member with before | added
    · exact sound.indexed t before
    · rw [List.mem_singleton.mp added]
      exact ⟨_, rfl⟩
  owns := by
    intro name t found part
    rw [find?_add] at found ⊢
    rcases Option.or_eq_some_iff.mp found with before | ⟨-, added⟩
    · rw [sound.owns name t before part, Option.some_or]
    · have new : t = ⟨collection, .indexed (.empty specification tokenizer), []⟩ :=
        (Table.owner_of_find? added)
      subst new
      have own := Table.same_of_find?_table added
      have unknown : db.find? (Auxiliary.tableName name part) = none := by
        rw [← find?_congr (Auxiliary.same_tableName.mpr ⟨rfl, own⟩) db]
        exact free part
      rw [unknown, Option.none_or, Table.find?_tableName ⟨_, rfl⟩ own part]

end Create

section Commands

variable {db db' : Database} {collection : String}

theorem insertable_ok {t : Table} : db.insertable collection = .ok t ↔ db.find? collection = some
    (.table t) := by
  unfold Database.insertable
  cases db.find? collection with
  | none => simp
  | some named => cases named <;> simp

section Insert

variable [Engine] {r : Record}

/-- What an engine makes of a record for a collection is the same for every engine that takes it. -/
theorem Sound.modify_accept (sound : db.Sound) (collection : String) (r : Record) :
    db.modify collection (·.accept r) = db.modify collection (·.add r) := by
  simp only [Database.modify]
  congr 1
  refine List.map_congr_left fun t member => ?_
  rw [Table.accept_of_indexed (sound.indexed t member)]

end Insert

private theorem eq_of_commandable {change : Unit → Database}
    (done : (db.commandable collection).map change = .ok db') : db' = change () := by
  cases taken : db.commandable collection with
  | error e => simp [taken, Except.map] at done
  | ok _ => simpa [taken, Except.map] using done.symm

theorem eq_of_setRank {rank : String} (set : db.setRank collection rank = .ok db') :
    db' = db.modify collection (Table.reindex (Indexing.withRank rank)) := by
  unfold Database.setRank at set
  split at set
  · cases set
  split at set
  · cases set
    rfl
  · cases set

theorem eq_of_rebuild (rebuilt : db.rebuild collection = .ok db') :
    db' = db.modify collection fun t => t.reindex (Indexing.build t.rows) :=
  eq_of_commandable rebuilt

theorem eq_of_optimize (optimized : db.optimize collection = .ok db') :
    db' = db.modify collection (Table.reindex Indexing.merge) :=
  eq_of_commandable optimized

theorem rows_tended (db : Database) (collection : String) (change : Table → Indexing → Indexing)
    (name : String) :
    (db.modify collection fun t => t.reindex (change t)).rows name = db.rows name := by
  have found := find?_modify db collection (fun t => t.reindex (change t)) (fun t _ => by simp) name
  simp only [Database.rows, found]
  cases db.find? name with
  | none => rfl
  | some named =>
    cases named with
    | auxiliary owner part => rfl
    | table t =>
      simp only [Option.map_some, Named.change]
      split
      · rw [Table.rows_reindex]
      · rfl

theorem modify_withRank_again (db : Database) (collection rank before : String) :
    (db.modify collection (Table.reindex (Indexing.withRank before))).modify collection
        (Table.reindex (Indexing.withRank rank)) =
      db.modify collection (Table.reindex (Indexing.withRank rank)) :=
  db.modify_reindex_reindex collection
    (fun _ => Indexing.withRank before) fun _ => Indexing.withRank rank

theorem Sound.find?_withRank (sound : db.Sound) (collection rank name : String) :
    (db.modify collection (Table.reindex (Indexing.withRank rank))).find? name =
      (db.find? name).map (Named.change fun t =>
        if Name.same t.name collection then t.reindex (Indexing.withRank rank) else t) :=
  sound.find?_modify (sound.keeps_tended fun _ => Indexing.withRank rank) name

theorem Sound.find?_ranked (sound : db.Sound) {collection : String} {t : Table}
    {indexing : Indexing} (found : db.find? collection = some (.table t))
    (kind : t.kind = .indexed indexing) (rank : String) :
    (db.modify collection (Table.reindex (Indexing.withRank rank))).find? collection =
      some (.table ⟨t.name, .indexed (indexing.withRank rank), t.rows⟩) := by
  obtain ⟨own, _, rows⟩ := t
  subst kind
  have named : Name.same own collection = true := same_of_find?_table found
  rw [sound.find?_withRank, found]
  simp [Named.change, named, Table.reindex]

section Tended

variable (sound : db.Sound)
include sound

theorem Sound.tend (collection : String) (change : Table → Indexing → Indexing) :
    Change collection db (db.modify collection fun t => t.reindex (change t)) ∧
      (db.modify collection fun t => t.reindex (change t)).Sound :=
  ⟨.modify sound (sound.keeps_tended change), sound.modify (sound.keeps_tended change)⟩

theorem Sound.setRank {rank : String} (set : db.setRank collection rank = .ok db') :
    Change collection db db' ∧ db'.Sound :=
  eq_of_setRank set ▸ sound.tend collection fun _ => Indexing.withRank rank

theorem Sound.rebuild (rebuilt : db.rebuild collection = .ok db') :
    Change collection db db' ∧ db'.Sound :=
  eq_of_rebuild rebuilt ▸ sound.tend collection fun t => Indexing.build t.rows

theorem Sound.optimize (optimized : db.optimize collection = .ok db') :
    Change collection db db' ∧ db'.Sound :=
  eq_of_optimize optimized ▸ sound.tend collection fun _ => Indexing.merge

end Tended

end Commands

end Database

end TextArchive.Store
