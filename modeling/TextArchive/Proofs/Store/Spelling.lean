import TextArchive.Proofs.Session.Invariant
import Mathlib.Data.List.Pairwise

/-!
Spellings of names. In every database that operations lead to, no two tables have a name in common,
case aside, so that what a name stands for is stored under one spelling, and it is there to those
who compare spellings if it is asked for in that one.
-/

set_option autoImplicit false
set_option relaxedAutoImplicit false

namespace TextArchive.Store

def Named.spelling : Named → String
  | .table t => t.name
  | .auxiliary owner part => part.tableName owner.name

namespace Table

private theorem find?_spelling {t : Table} {name : String} (member : name ∈ t.names) :
    ∃ found, t.find? name = some found ∧ found.spelling = name := by
  unfold names at member
  rcases List.mem_cons.mp member with rfl | listed
  · exact ⟨.table t, by simp [find?], rfl⟩
  · obtain ⟨part, auxiliary, rfl⟩ := List.mem_map.mp listed
    refine ⟨.auxiliary t part, ?_, rfl⟩
    cases kind : t.kind with
    | indexed indexing => exact find?_tableName ⟨indexing, kind⟩ (Name.same_refl _) part
    | plain longest => simp [auxiliaries, kind] at auxiliary

private theorem mem_names_of_find? {t : Table} {name : String} {found : Named}
    (h : t.find? name = some found) :
    found.spelling ∈ t.names := by
  unfold find? at h
  split at h
  · cases h
    exact List.mem_cons_self
  · obtain ⟨part, asked, rfl⟩ := Option.map_eq_some_iff.mp h
    exact List.mem_cons_of_mem _ (List.mem_map_of_mem (List.mem_of_find?_eq_some asked))

private theorem SameFrame.names {t u : Table} (same : t.SameFrame u) :
    u.name = t.name ∧ u.auxiliaries = t.auxiliaries :=
  ⟨same.name, same.auxiliaries⟩

private theorem names_withRank (t : Table) (collection rank : String) :
    let changed := if Name.same t.name collection then t.reindex (Indexing.withRank rank) else t
    changed.name = t.name ∧ changed.auxiliaries = t.auxiliaries := by
  dsimp only
  split
  · exact ⟨name_reindex .., auxiliaries_reindex ..⟩
  · exact ⟨rfl, rfl⟩

end Table

namespace Database

/-- Tables no two of which have a name in common. -/
def Apart (db : Database) : Prop :=
  db.tables.Pairwise fun t u => ∀ name, t.find? name = none ∨ u.find? name = none

section Apart

variable {db : Database} (apart : db.Apart)
include apart

private theorem Apart.eq {t u : Table} (t_there : t ∈ db.tables) (u_there : u ∈ db.tables)
    (name : String)
    (t_named : t.find? name ≠ none) (u_named : u.find? name ≠ none) : t = u := by
  by_contra other
  have : Std.Symm fun t u : Table => ∀ name, t.find? name = none ∨ u.find? name = none :=
    ⟨fun _ _ h name => (h name).symm⟩
  rcases List.Pairwise.forall apart t_there u_there other name with missing | missing
  · exact t_named missing
  · exact u_named missing

private theorem Apart.hasTable_iff (name : String) :
    db.hasTable name = true ↔ ∃ found, db.find? name = some found ∧ found.spelling = name := by
  constructor
  · intro has
    obtain ⟨t, member, listed⟩ := List.any_eq_true.mp has
    obtain ⟨named, here, spelled⟩ := Table.find?_spelling (by simpa using listed)
    cases found : db.find? name with
    | none =>
      rw [find?_eq, List.findSome?_eq_none_iff] at found
      rw [found t member] at here
      cases here
    | some other =>
      obtain ⟨owner, there⟩ := mem_of_find? found
      have same := apart.eq member owner name (by simp [here]) (by simp [there])
      rw [← same, here] at there
      exact ⟨other, rfl, by rw [← Option.some.inj there]; exact spelled⟩
  · rintro ⟨found, here, spelled⟩
    obtain ⟨owner, there⟩ := mem_of_find? here
    have listed := Table.mem_names_of_find? there
    rw [spelled] at listed
    exact List.any_eq_true.mpr ⟨found.owner, owner, by simpa using listed⟩

section Map

variable {f : Table → Table}
    (names : ∀ t ∈ db.tables, (f t).name = t.name ∧ (f t).auxiliaries = t.auxiliaries)
include names

private theorem Apart.map : ({ db with tables := db.tables.map f } : Database).Apart := by
  have missing : ∀ t ∈ db.tables, ∀ name, t.find? name = none → (f t).find? name = none := by
    intro t member name missing
    obtain ⟨own, auxiliaries⟩ := names t member
    rw [Table.find?_change (by rw [own]; exact Name.same_refl _) auxiliaries f rfl,
      missing, Option.map_none]
  refine List.pairwise_map.mpr (List.Pairwise.imp_of_mem (fun t_there u_there h name => ?_) apart)
  exact (h name).imp (missing _ t_there name) (missing _ u_there name)

omit apart in
private theorem hasTable_map {name : String} (has : db.hasTable name = true) :
    ({ db with tables := db.tables.map f } : Database).hasTable name = true := by
  obtain ⟨t, member, listed⟩ := List.any_eq_true.mp has
  refine List.any_eq_true.mpr ⟨f t, List.mem_map_of_mem member, ?_⟩
  obtain ⟨own, auxiliaries⟩ := names t member
  simpa only [Table.names, own, auxiliaries] using listed

end Map

end Apart

/-- Whether what a name stands for, if it stands for anything, is stored under this spelling of
it. -/
def Spelled (db : Database) (name : String) : Prop :=
  ∀ found, db.find? name = some found → found.spelling = name

/-- A collection that has been made, or was there already, has exactly the name that was asked for,
unless that name stood for something in another spelling. -/
theorem Apart.hasTable_iff_spelled {db db' : Database} {collection specification : String}
    (apart : db.Apart) (created : db.createCollection collection specification = .ok db') :
    db'.hasTable collection = true ↔ db.Spelled collection := by
  rcases createCollection_cases created with ⟨rfl, there⟩ | ⟨missing, -, tokenizer, -, rfl⟩
  · rw [apart.hasTable_iff]
    constructor
    · rintro ⟨found, here, spelled⟩ other also
      rw [here] at also
      exact Option.some.inj also ▸ spelled
    · intro spelled
      obtain ⟨found, here⟩ := Option.ne_none_iff_exists'.mp there
      exact ⟨found, here, spelled found here⟩
  · refine ⟨fun _ found here => ?_, fun _ => by simp [hasTable, Table.names]⟩
    rw [missing] at here
    cases here

theorem kept_apart : Kept Apart where
  withWriteAhead _ _ apart := apart
  createCollection db db' collection specification apart created := by
    rcases createCollection_cases created with ⟨rfl, -⟩ | ⟨missing, free, tokenizer, -, rfl⟩
    · exact apart
    · refine List.pairwise_append.mpr ⟨apart, List.pairwise_singleton _ _,
        fun t member u new name => ?_⟩
      rw [List.mem_singleton.mp new]
      by_cases named :
        Table.find? ⟨collection, .indexed (.empty specification tokenizer), []⟩ name = none
      · exact .inr named
      left
      have unknown : db.find? name = none := by
        unfold Table.find? at named
        split at named
        · rename_i own
          rw [← find?_congr own]
          exact missing
        · obtain ⟨found, asked⟩ := Option.ne_none_iff_exists'.mp named
          obtain ⟨part, wanted, -⟩ := Option.map_eq_some_iff.mp asked
          have own : Name.same (part.tableName collection) name = true := by
            simpa using List.find?_some wanted
          rw [← find?_congr own]
          exact free part
      rw [find?_eq, List.findSome?_eq_none_iff] at unknown
      exact unknown t member
  map _ _ apart same := apart.map fun t member => (same t member).names
  setRank _ _ _ _ apart set := eq_of_setRank set ▸ apart.map fun t _ => t.names_withRank _ _

theorem kept_hasTable (name : String) : Kept fun db => db.Apart ∧ db.hasTable name = true where
  withWriteAhead _ _ h := h
  createCollection db db' collection specification h created := by
    refine ⟨kept_apart.createCollection _ _ _ _ h.1 created, ?_⟩
    rcases createCollection_cases created with ⟨rfl, -⟩ | ⟨-, -, tokenizer, -, rfl⟩
    · exact h.2
    · simp only [hasTable, List.any_append, Bool.or_eq_true]
      exact .inl h.2
  map _ _ h same :=
    ⟨h.1.map fun t member => (same t member).names,
      hasTable_map (fun t member => (same t member).names) h.2⟩
  setRank _ _ _ _ h set := by
    rw [eq_of_setRank set]
    exact ⟨h.1.map fun t _ => t.names_withRank _ _,
      hasTable_map (fun t _ => t.names_withRank _ _) h.2⟩

end Database

end TextArchive.Store
