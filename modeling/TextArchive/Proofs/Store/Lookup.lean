import TextArchive.Search.Cursor

/-!
What names stand for in a database, and what changes to its tables do to that. Everything that can
be asked about a collection is answered from what its name and those of its auxiliary tables stand
for.
-/

set_option autoImplicit false
set_option relaxedAutoImplicit false

namespace TextArchive.Store

namespace Name

theorem same_iff {a b : String} : same a b = true ↔ lower a = lower b := by
  simp [same]

@[simp] theorem same_refl (a : String) : same a a = true := same_iff.mpr rfl

theorem same_comm (a b : String) : same a b = same b a := by
  simp only [same, Bool.beq_comm]

theorem lower_append (a b : String) : lower (a ++ b) = lower a ++ lower b := by
  simp [lower]

theorem same_congr {a b : String} (h : same a b = true) (c : String) : same c a = same c b := by
  simp only [same, same_iff.mp h]

end Name

namespace Auxiliary

private theorem getLast?_lower_tableName (collection : String) (part : Auxiliary) :
    (Name.lower (part.tableName collection)).getLast? = (Name.lower part.suffix).getLast? := by
  cases part <;> simp [tableName, Name.lower, suffix]

theorem same_tableName {a b : String} {x y : Auxiliary} :
    Name.same (x.tableName a) (y.tableName b) = true ↔ x = y ∧ Name.same a b = true := by
  constructor
  · intro h
    have ends : (Name.lower x.suffix).getLast? = (Name.lower y.suffix).getLast? := by
      rw [← getLast?_lower_tableName a, ← getLast?_lower_tableName b, Name.same_iff.mp h]
    have parts : x = y := by
      cases x <;> cases y <;> first | rfl | exact absurd ends (by decide)
    subst parts
    refine ⟨rfl, Name.same_iff.mpr ?_⟩
    simpa [tableName, Name.lower_append] using Name.same_iff.mp h
  · rintro ⟨rfl, h⟩
    simpa [tableName, Name.same_iff, Name.lower_append] using h

theorem not_same_tableName (collection : String) (part : Auxiliary) :
    Name.same collection (part.tableName collection) = false := by
  refine Bool.eq_false_iff.mpr fun h => ?_
  have lengths := congrArg List.length (Name.same_iff.mp h)
  simp [tableName, Name.lower] at lengths

theorem mem_all (part : Auxiliary) : part ∈ all := by
  cases part <;> decide

end Auxiliary

def Named.owner : Named → Table
  | .table t => t
  | .auxiliary owner _ => owner

/-- What a name stands for when the table it belongs to has been changed. -/
def Named.change (f : Table → Table) : Named → Named
  | .table t => .table (f t)
  | .auxiliary owner part => .auxiliary (f owner) part

@[simp] theorem Named.owner_change (f : Table → Table) (found : Named) :
    (found.change f).owner = f found.owner := by
  cases found <;> rfl

/-- What a name stands for in a table. -/
def Table.find? (t : Table) (name : String) : Option Named :=
  if Name.same t.name name then some (.table t)
  else (t.auxiliaries.find? fun a => Name.same (a.tableName t.name) name).map (.auxiliary t)

namespace Table

theorem owner_of_find? {t : Table} {name : String} {found : Named} (h : t.find? name = some found) :
    found.owner = t := by
  unfold find? at h
  split at h
  · cases h
    rfl
  · obtain ⟨part, -, rfl⟩ := Option.map_eq_some_iff.mp h
    rfl

theorem same_of_find?_table {t u : Table} {name : String} (h : t.find? name = some (.table u)) :
    Name.same t.name name = true := by
  by_cases own : Name.same t.name name = true
  · exact own
  · simp [find?, own] at h

private theorem find?_congr {a b : String} (h : Name.same a b = true) (t : Table) :
    t.find? a = t.find? b := by
  simp only [find?, Name.same_congr h]

theorem find?_change {t u : Table} (name : Name.same u.name t.name = true)
    (auxiliaries : u.auxiliaries = t.auxiliaries) (f : Table →
    Table) (f_eq : f t = u) (asked : String) :
    u.find? asked = (t.find? asked).map (Named.change f) := by
  have own : Name.same u.name asked = Name.same t.name asked := by
    rw [Name.same_comm, Name.same_comm t.name, Name.same_congr name]
  have parts : ∀ a : Auxiliary, Name.same (a.tableName u.name) asked = Name.same
    (a.tableName t.name) asked := by
    intro a
    rw [Name.same_comm, Name.same_comm (a.tableName t.name)]
    exact Name.same_congr (Auxiliary.same_tableName.mpr ⟨rfl, name⟩) asked
  simp only [find?, own, parts, auxiliaries]
  split
  · simp [Named.change, f_eq]
  · simp only [Option.map_map]
    congr 1
    funext part
    simp [Named.change, f_eq]

end Table

namespace Database

/-- Whether a name is that of a collection. -/
def IsCollection (db : Database) (name : String) : Prop :=
  ∃ t indexing, db.find? name = some (.table t) ∧ t.kind = .indexed indexing

instance (db : Database) (name : String) : Decidable (db.IsCollection name) :=
  match found : db.find? name with
  | some (.table ⟨own, .indexed indexing, rows⟩) =>
    isTrue ⟨⟨own, .indexed indexing, rows⟩, indexing, found, rfl⟩
  | some (.table ⟨_, .plain _, _⟩) => isFalse (by rintro ⟨t, i, same, kind⟩; simp_all)
  | some (.auxiliary _ _) => isFalse (by rintro ⟨t, i, same, kind⟩; simp_all)
  | none => isFalse (by rintro ⟨t, i, same, kind⟩; simp_all)

theorem IsCollection.commandable {db : Database} {name : String} (there : db.IsCollection name) :
    db.commandable name = .ok () := by
  obtain ⟨⟨own, _, rows⟩, indexing, found, rfl⟩ := there
  simp only [Database.commandable, found]

/-- A collection takes what is a rank expression, and nothing else. -/
theorem IsCollection.setRank {db : Database} {name : String} (there : db.IsCollection name)
    (rank : String) :
    db.setRank name rank =
      if Index.RankExpression.isExpression rank.toList then .ok
      (db.modify name (Table.reindex (Indexing.withRank rank)))
      else .error .unusableRank := by
  rw [Database.setRank, there.commandable]

theorem find?_eq (db : Database) (name : String) :
    db.find? name = db.tables.findSome? (·.find? name) := rfl

theorem find?_congr {a b : String} (h : Name.same a b = true) (db : Database) :
    db.find? a = db.find? b := by
  simp only [find?_eq, Table.find?_congr h]

theorem mem_of_find? {db : Database} {name : String} {found : Named}
    (h : db.find? name = some found) :
    found.owner ∈ db.tables ∧ found.owner.find? name = some found := by
  obtain ⟨t, member, inTable⟩ := List.exists_of_findSome?_eq_some (find?_eq db name ▸ h)
  rw [Table.owner_of_find? inTable]
  exact ⟨member, inTable⟩

theorem same_of_find?_table {db : Database} {name : String} {t : Table}
    (h : db.find? name = some (.table t)) :
    Name.same t.name name = true :=
  Table.same_of_find?_table (mem_of_find? h).2

theorem find?_append (db : Database) (t : Table) (name : String) :
    ({ db with tables := db.tables ++ [t] } : Database).find? name =
    (db.find? name).or (t.find? name) := by
  simp [find?_eq, List.findSome?_append]

theorem find?_map (db : Database) (f : Table → Table)
    (names : ∀ t ∈ db.tables, (f t).name = t.name ∧
    (f t).auxiliaries = t.auxiliaries) (name : String) :
    ({ db with tables := db.tables.map f } : Database).find? name =
    (db.find? name).map (Named.change f) := by
  simp only [find?_eq]
  generalize db.tables = tables at names
  induction tables with
  | nil => rfl
  | cons t tables ih =>
    obtain ⟨own, auxiliaries⟩ := names t List.mem_cons_self
    have here : (f t).find? name = (t.find? name).map (Named.change f) :=
      Table.find?_change (own ▸ Name.same_refl _) auxiliaries f rfl name
    rw [List.map_cons, List.findSome?_cons, List.findSome?_cons, here,
      ih fun u member => names u (List.mem_cons_of_mem t member)]
    cases t.find? name <;> rfl

theorem find?_modify (db : Database) (collection : String) (f : Table → Table)
    (names : ∀ t ∈ db.tables, (f t).name = t.name ∧
    (f t).auxiliaries = t.auxiliaries) (name : String) :
    (db.modify collection f).find? name =
      (db.find? name).map
      (Named.change fun t => if Name.same t.name collection then f t else t) := by
  refine db.find?_map _ (fun t member => ?_) name
  split
  · exact names t member
  · exact ⟨rfl, rfl⟩

theorem modify_modify (db : Database) (collection : String) {f : Table → Table}
    (names : ∀ t, (f t).name = t.name) (g : Table → Table) :
    (db.modify collection f).modify collection g = db.modify collection (g ∘ f) := by
  simp only [modify, List.map_map]
  congr 1
  refine List.map_congr_left fun t _ => ?_
  rw [Function.comp_apply]
  by_cases concerned : Name.same t.name collection = true
  · rw [if_pos concerned, names, if_pos concerned, if_pos concerned]
    rfl
  · rw [if_neg concerned, if_neg concerned, if_neg concerned]

theorem find?_reindex (db : Database) (change : Indexing → Indexing) (name : String) :
    (db.reindex change).find? name = (db.find? name).map (Named.change (Table.reindex change)) :=
  db.find?_map _ (fun _ _ => by simp) name

section Answers

variable {db db' : Database} {collection : String}

theorem rows_congr (h : db'.find? collection = db.find? collection) :
    db'.rows collection = db.rows collection := by
  simp only [rows, h]

theorem rankConfig_congr (h : db'.find? (Auxiliary.config.tableName collection) =
      db.find? (Auxiliary.config.tableName collection)) :
    db'.rankConfig collection = db.rankConfig collection := by
  simp only [rankConfig, h]

private theorem answer_congr (h : db'.find? collection = db.find? collection) (text : String)
    (topK : Nat) :
    Search.answer db' collection text topK = Search.answer db collection text topK := by
  simp only [Search.answer, Search.listCollection, Search.rankCollection, Search.searchTime, h]

/-- The answer of a search depends on what the name of the collection stands for alone. -/
theorem searchAfter_congr (h : db'.find? collection = db.find? collection) (opened : Nat)
    (text : String) (topK : Nat) :
    searchAfter opened db' collection text topK = searchAfter opened db collection text topK := by
  simp only [searchAfter, h, answer_congr h]

end Answers

end Database

end TextArchive.Store
