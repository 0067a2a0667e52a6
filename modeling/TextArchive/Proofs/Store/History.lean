import TextArchive.Proofs.Store.Arising

/-!
Databases as histories: the rows of every collection are the records added under its name, numbered
from one on. Adding records adds to what is held, and nothing else changes it.
-/

set_option autoImplicit false
set_option relaxedAutoImplicit false

namespace TextArchive.Store

/-- Records as rows numbered one after the other. -/
def Row.numberedFrom (first : Nat) (records : List Record) : List Row :=
  records.mapIdx fun n r => Row.ofRecord (first + n) r

theorem Row.numberedFrom_cons (first : Nat) (r : Record) (records : List Record) :
    Row.numberedFrom first (r :: records) = Row.ofRecord first r :: Row.numberedFrom
    (first + 1) records := by
  simp [Row.numberedFrom, List.mapIdx_cons, Nat.add_comm, Nat.add_left_comm]

theorem Row.numberedFrom_append (first : Nat) (xs ys : List Record) :
    Row.numberedFrom first (xs ++ ys) = Row.numberedFrom first xs ++ Row.numberedFrom
    (first + xs.length) ys := by
  simp [Row.numberedFrom, List.mapIdx_append, Nat.add_comm, Nat.add_left_comm]

theorem Row.greatest_numberedFrom (n : Nat) (records : List Record) :
    ((Row.numberedFrom (n + 1) records).map (·.rowid)).foldl max n = n + records.length := by
  induction records generalizing n with
  | nil => simp [numberedFrom]
  | cons r records ih =>
    rw [numberedFrom_cons, List.map_cons, List.foldl_cons]
    have next : max n (Row.ofRecord (n + 1) r).rowid = n + 1 := Nat.max_eq_right (Nat.le_succ n)
    rw [next, ih, List.length_cons]
    omega

private theorem Table.nextRowid_of_rows {t : Table} {records : List Record}
    (rows : t.rows = Row.numberedFrom 1 records) :
    t.nextRowid = records.length + 1 := by
  rw [nextRowid, rows, Row.greatest_numberedFrom 0, Nat.zero_add]

namespace Database

/-- A database whose rows are the records held under each name. -/
structure Holds (db : Database) (held : String → List Record) : Prop where
  arises : db.Arises
  rows : ∀ name t, db.find? name = some (.table t) → t.rows = Row.numberedFrom 1 (held name)
  nothing : ∀ name, (∀ t, db.find? name ≠ some (.table t)) → held name = []

theorem holds_empty : empty.Holds fun _ => [] where
  arises := .empty
  rows := by simp [empty, find?]
  nothing := by simp

section

variable {db db' : Database} {held : String → List Record} {collection : String}
    (holds : db.Holds held)
include holds

theorem Holds.withWriteAhead (writeAhead : Bool) : ({ db with writeAhead } : Database).Holds held :=
  ⟨holds.arises.withWriteAhead writeAhead, holds.rows, holds.nothing⟩

omit holds in
private theorem holds_change {after : String → List Record} (arises : db'.Arises)
    {f : Table → Table} (found : ∀ name, db'.find? name = (db.find? name).map (Named.change f))
    (rows : ∀ name t, db.find? name = some (.table t) → (f t).rows = Row.numberedFrom 1 (after name))
    (nothing : ∀ name, (∀ t, db.find? name ≠ some (.table t)) →
    after name = []) : db'.Holds after where
  arises := arises
  rows := by
    intro name u here
    rw [found] at here
    obtain ⟨t | _, before, changed⟩ := Option.map_eq_some_iff.mp here
    · cases changed
      exact rows name t before
    · cases changed
  nothing := by
    intro name lacking
    refine nothing name fun t here => lacking (f t) ?_
    rw [found, here]
    rfl

private theorem Holds.tend {change : Table → Indexing → Indexing}
    (arises : (db.modify collection fun t => t.reindex (change t)).Arises) :
    (db.modify collection fun t => t.reindex (change t)).Holds held := by
  refine holds_change arises (find?_modify db collection _ fun t _ => by simp)
    (fun name t found => ?_) holds.nothing
  rw [← holds.rows name t found]
  split
  · exact Table.rows_reindex ..
  · rfl

theorem Holds.setRank {rank : String} (set : db.setRank collection rank = .ok db') :
    db'.Holds held :=
  eq_of_setRank set ▸ holds.tend (eq_of_setRank set ▸ holds.arises.setRank set)

theorem Holds.rebuild (rebuilt : db.rebuild collection = .ok db') : db'.Holds held :=
  eq_of_rebuild rebuilt ▸ holds.tend (eq_of_rebuild rebuilt ▸ holds.arises.rebuild rebuilt)

theorem Holds.optimize (optimized : db.optimize collection = .ok db') : db'.Holds held :=
  eq_of_optimize optimized ▸ holds.tend (eq_of_optimize optimized ▸ holds.arises.optimize optimized)

theorem Holds.flush : (db.reindex Indexing.flush).Holds held := by
  refine holds_change (.flush holds.arises) (db.find?_reindex _)
    (fun name t found => ?_) holds.nothing
  rw [Table.rows_reindex]
  exact holds.rows name t found

theorem Holds.createCollection {specification : String}
    (created : db.createCollection collection specification = .ok db') : db'.Holds held := by
  rcases createCollection_cases created with ⟨rfl, -⟩ | ⟨-, -, tokenizer, -, rfl⟩
  · exact holds
  refine ⟨.createCollection holds.arises created, fun name t found => ?_, fun name lacking => ?_⟩
  · rw [find?_append] at found
    rcases Option.or_eq_some_iff.mp found with before | ⟨unknown, added⟩
    · exact holds.rows name t before
    · obtain rfl : t = ⟨collection, .indexed (.empty specification tokenizer), []⟩ :=
        Table.owner_of_find? added
      rw [holds.nothing name fun t found => by simp [unknown] at found]
      rfl
  · refine holds.nothing name fun t found => lacking t ?_
    rw [find?_append, found, Option.some_or]

theorem Holds.accept [Engine] {t : Table} (found : db.find? collection = some (.table t))
    (r : Record) :
    (db.modify collection (·.accept r)).Holds fun name =>
      if Name.same collection name then held name ++ [r] else held name := by
  rw [holds.arises.sound.modify_accept]
  refine holds_change (.add holds.arises collection r)
    (find?_modify db collection _ fun u _ => ⟨Table.name_add .., Table.auxiliaries_add ..⟩) ?_ ?_
  · intro name u here
    have rows := holds.rows name u here
    have one : Name.same u.name collection = Name.same collection name := by
      rw [Name.same_comm u.name, Name.same_congr (same_of_find?_table here)]
    by_cases concerned : Name.same collection name = true
    · rw [if_pos (one.trans concerned), if_pos concerned, Table.rows_add,
        Table.nextRowid_of_rows rows, rows, Row.numberedFrom_append, Nat.add_comm 1]
      rfl
    · rw [if_neg (one ▸ concerned), if_neg concerned]
      exact rows
  · intro name lacking
    have other : Name.same collection name = false := by
      refine Bool.eq_false_iff.mpr fun same => lacking t ?_
      rw [← find?_congr same]
      exact found
    rw [other]
    exact holds.nothing name lacking

end

/-- The index of rows that have been added since it was made. -/
def indexingOf (rows : List Row) : Indexing :=
  ⟨"unicode61", .standard, none, [], rows.map (.ofRow .standard)⟩

theorem inStep_indexingOf (name : String) (rows : List Row) :
    Table.InStep ⟨name, .indexed (indexingOf rows), rows⟩ := by
  rintro _ ⟨⟩
  rfl

/-- A database of one collection, to which records have been added. -/
def ofRecords (name : String) (records : List Record) : Database :=
  ⟨false, [⟨name, .indexed (indexingOf (Row.numberedFrom 1 records)), Row.numberedFrom 1 records⟩]⟩

theorem find?_ofRecords (name : String) (records : List Record) :
    (ofRecords name records).find? name =
      some (.table ⟨name, .indexed (indexingOf (Row.numberedFrom 1 records)),
        Row.numberedFrom 1 records⟩) := by
  simp [ofRecords, find?_eq, Table.find?, Name.same_refl]

private theorem add_ofRecords (name : String) (records : List Record) (r : Record) :
    (ofRecords name records).modify name (·.add r) = ofRecords name (records ++ [r]) := by
  have next := Table.nextRowid_of_rows
    (t := ⟨name, .indexed (indexingOf (Row.numberedFrom 1 records)),
      Row.numberedFrom 1 records⟩) rfl
  simp only [ofRecords, modify, List.map_cons, List.map_nil, Name.same_refl, if_true,
    Table.add, next, Row.numberedFrom_append, Nat.add_comm]
  simp only [Table.reindex, Indexing.note, indexingOf, List.map_append]
  rfl

theorem arises_ofRecords {name : String} (free : Name.isReserved name = false)
    (records : List Record) :
    (ofRecords name records).Arises := by
  induction records using List.reverseRecOn with
  | nil => exact .createCollection .empty ((createCollection_standard rfl name).1 free)
  | append_singleton records r ih =>
    rw [← add_ofRecords]
    exact .add ih name r

end Database

end TextArchive.Store
