import TextArchive.Proofs.Store.Transaction

/-!
What stays of tables however records are taken or given up and however indexes are worked on: the
name and the kind, with the tokenizer and the rank of an index.
-/

set_option autoImplicit false
set_option relaxedAutoImplicit false

namespace TextArchive.Store

namespace Indexing

/-- Whether an index is another one but for what it says. -/
def SameFrame (i j : Indexing) : Prop :=
  ∃ segments pending, j = { i with segments, pending }

private theorem sameFrame_flush (i : Indexing) : i.SameFrame i.flush := by
  unfold flush
  split
  · exact ⟨i.segments, i.pending, rfl⟩
  dsimp only
  split
  · exact ⟨_, _, rfl⟩
  · exact ⟨_, _, rfl⟩

end Indexing

namespace Table

/-- Whether a table is another one but for its rows and what its index says. -/
structure SameFrame (t u : Table) : Prop where
  name : u.name = t.name
  indexed : ∀ i, t.kind = .indexed i → ∃ j, u.kind = .indexed j ∧ i.SameFrame j
  plain : ∀ longest, t.kind = .plain longest → u.kind = .plain longest

namespace SameFrame

private theorem refl (t : Table) : t.SameFrame t :=
  ⟨rfl, fun i kind => ⟨i, kind, i.segments, i.pending, rfl⟩, fun _ kind => kind⟩

private theorem trans {t u v : Table} (first : t.SameFrame u) (second : u.SameFrame v) :
    t.SameFrame v where
  name := second.name.trans first.name
  indexed := by
    intro i kind
    obtain ⟨j, kind, segments, pending, rfl⟩ := first.indexed i kind
    obtain ⟨k, kind, segments, pending, rfl⟩ := second.indexed _ kind
    exact ⟨_, kind, segments, pending, rfl⟩
  plain longest kind := second.plain longest (first.plain longest kind)

private theorem reindex (t : Table) (rows : List Row) {change : Indexing → Indexing}
    (same : ∀ i : Indexing, i.SameFrame (change i)) :
    t.SameFrame (Table.reindex change { t with rows }) where
  name := name_reindex ..
  indexed i kind := ⟨change i, by simp only [Table.reindex, kind], same i⟩
  plain longest kind := by simp only [Table.reindex, kind]

theorem auxiliaries {t u : Table} (same : t.SameFrame u) : u.auxiliaries = t.auxiliaries := by
  cases kind : t.kind with
  | indexed i =>
    obtain ⟨j, after, -⟩ := same.indexed i kind
    simp only [Table.auxiliaries, kind, after]
  | plain longest => simp only [Table.auxiliaries, kind, same.plain longest kind]

theorem exists_indexed {t u : Table} (same : t.SameFrame u) (indexed : ∃ i, t.kind = .indexed i) :
    ∃ j, u.kind = .indexed j := by
  obtain ⟨i, kind⟩ := indexed
  obtain ⟨j, after, -⟩ := same.indexed i kind
  exact ⟨j, after⟩

section Engine

variable [Engine] (t : Table)

private theorem accept (r : Record) : t.SameFrame (t.accept r) := by
  unfold Table.accept
  split
  · exact reindex t _ fun i => ⟨_, _, rfl⟩
  · rename_i longest kind
    exact ⟨rfl, fun i also => (nomatch kind.symm.trans also), fun _ same => same⟩

private theorem acceptAll (records : List Record) : t.SameFrame (t.acceptAll records) := by
  induction records generalizing t with
  | nil => exact refl t
  | cons r records ih => exact (accept t r).trans (ih (t.accept r))

private theorem left (medium : Medium) (working : Table) : t.SameFrame (t.left medium working) := by
  unfold Table.left
  split
  · exact refl t
  · exact reindex t _ fun i => ⟨_, _, rfl⟩

end Engine

end SameFrame

end Table

namespace Database

/-- A property that every change of a database but that of a rank keeps. -/
structure KeptUnranked (P : Database → Prop) : Prop where
  withWriteAhead : ∀ db writeAhead, P db → P { db with writeAhead }
  createCollection : ∀ db db' collection specification, P db →
    db.createCollection collection specification = .ok db' → P db'
  map : ∀ db f, P db → (∀ t ∈ db.tables, t.SameFrame (f t)) →
    P { db with tables := db.tables.map f }

/-- A property that every change of a database keeps. -/
structure Kept (P : Database → Prop) : Prop extends Database.KeptUnranked P where
  setRank : ∀ db db' collection rank, P db → db.setRank collection rank = .ok db' → P db'

namespace KeptUnranked

variable {P : Database → Prop} (kept : KeptUnranked P) {db : Database} (before : P db)
include kept before

private theorem modify (collection : String) {f : Table → Table}
    (same : ∀ t : Table, t.SameFrame (f t)) :
    P (db.modify collection f) := by
  refine kept.map db _ before fun t _ => ?_
  split
  · exact same t
  · exact .refl t

theorem rebuild {db' : Database} {collection : String} (rebuilt : db.rebuild collection = .ok db') :
    P db' :=
  eq_of_rebuild rebuilt ▸ kept.modify before collection fun t =>
    .reindex t t.rows fun _ => ⟨_, _, rfl⟩

theorem optimize {db' : Database} {collection : String}
    (optimized : db.optimize collection = .ok db') : P db' :=
  eq_of_optimize optimized ▸ kept.modify before collection fun t =>
    .reindex t t.rows fun _ => ⟨_, _, rfl⟩

theorem insertBatch [Engine] (unjournaled : Option Medium) (collection : String)
    (records : List Record) :
    P ((Transacted.settled db unjournaled).insertBatch collection records).2.committed := by
  rcases Transacted.insertBatch_cases db unjournaled collection records with
    ⟨t, -, -, ended⟩ | ⟨e, taken, ended⟩
  · rw [ended]
    exact kept.map _ _ (kept.modify before collection fun t => .acceptAll t records)
      fun t _ => .reindex t t.rows fun i => i.sameFrame_flush
  · rw [ended]
    cases unjournaled with
    | none => exact before
    | some medium => exact kept.modify before collection fun t => .left t medium _

end KeptUnranked

end Database

end TextArchive.Store
