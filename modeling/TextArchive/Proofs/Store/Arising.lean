import TextArchive.Proofs.Store.Marking
import TextArchive.Proofs.Store.Names
import TextArchive.Proofs.Store.Soundness

/-!
The databases that arise from an empty one: collections are made in them, records are added to
collections, ranks are set, indexes are written, merged and made anew, and rows are deleted softly
and restored. Such a database has collections alone, each with the tables of its index, which says
what the rows hold.
-/

set_option autoImplicit false
set_option relaxedAutoImplicit false

namespace TextArchive.Store.Database

/-- The databases that arise from an empty one. -/
inductive Arises : Database → Prop
  | empty : Arises .empty
  | withWriteAhead {db : Database} (before : Arises db) (writeAhead : Bool) :
      Arises { db with writeAhead }
  | createCollection {db db' : Database} (before : Arises db) {collection specification : String}
      (created : db.createCollection collection specification = .ok db') : Arises db'
  | add {db : Database} (before : Arises db) (collection : String) (r : Record) :
      Arises (db.modify collection (·.add r))
  | flush {db : Database} (before : Arises db) : Arises (db.reindex Indexing.flush)
  | setRank {db db' : Database} (before : Arises db) {collection rank : String}
      (set : db.setRank collection rank = .ok db') : Arises db'
  | rebuild {db db' : Database} (before : Arises db) {collection : String}
      (rebuilt : db.rebuild collection = .ok db') : Arises db'
  | optimize {db db' : Database} (before : Arises db) {collection : String}
      (optimized : db.optimize collection = .ok db') : Arises db'
  | softDelete {db db' : Database} (before : Arises db) {collection title : String}
      {time : Option String} {count : Nat}
      (deleted : db.softDelete collection title time = .ok (count, db')) : Arises db'

private theorem eq_of_softDelete {db db' : Database} {collection title : String}
    {time : Option String} {count : Nat}
    (deleted : db.softDelete collection title time = .ok (count, db')) :
    db' = db.modify collection (markDeleted title time) := by
  unfold softDelete at deleted
  split at deleted
  · cases deleted
  · cases deleted
    rfl
  · cases deleted

section Sound

variable {db db' : Database} {collection : String} (sound : db.Sound)
include sound

theorem Sound.createCollection {specification : String}
    (created : db.createCollection collection specification = .ok db') : db'.Sound := by
  rcases createCollection_cases created with ⟨rfl, -⟩ | ⟨-, free, tokenizer, -, rfl⟩
  · exact sound
  · exact sound.add free

private theorem Sound.softDelete {title : String} {time : Option String} {count : Nat}
    (deleted : db.softDelete collection title time = .ok (count, db')) : db'.Sound := by
  obtain rfl := eq_of_softDelete deleted
  exact sound.modify fun t member => ⟨rfl, sound.indexed t member⟩

end Sound

theorem Arises.sound {db : Database} (arises : db.Arises) : db.Sound := by
  induction arises with
  | empty => exact sound_empty
  | withWriteAhead _ writeAhead ih => exact ⟨ih.indexed, ih.owns⟩
  | createCollection _ created ih => exact ih.createCollection created
  | add _ collection r ih =>
    exact ih.modify fun t member => ⟨Table.name_add .., Table.indexed_add r (ih.indexed t member)⟩
  | flush _ ih => exact ih.reindex _
  | setRank _ set ih => exact (ih.setRank set).2
  | rebuild _ rebuilt ih => exact (ih.rebuild rebuilt).2
  | optimize _ optimized ih => exact (ih.optimize optimized).2
  | softDelete _ deleted ih => exact ih.softDelete deleted

def Everywhere (P : Table → Prop) (db : Database) : Prop :=
  ∀ t ∈ db.tables, P t

section Everywhere

variable {P : Table → Prop} {db : Database} (everywhere : db.Everywhere P) {f : Table → Table}
    (keeps : ∀ t, P t → P (f t))
include everywhere keeps

private theorem Everywhere.map : ({ db with tables := db.tables.map f } : Database).Everywhere P :=
    by
  intro t member
  obtain ⟨before, inside, rfl⟩ := List.mem_map.mp member
  exact keeps before (everywhere before inside)

private theorem Everywhere.modify (collection : String) :
    (db.modify collection f).Everywhere P := by
  refine everywhere.map fun t before => ?_
  split
  · exact keeps t before
  · exact before

end Everywhere

section InStep

variable {db : Database} (inStep : db.Everywhere Table.InStep) (collection : String)
include inStep

theorem merged_rebuilt :
    let rebuilt := db.modify collection fun t => t.reindex (Indexing.build t.rows)
    rebuilt.merged = db.merged ∧ rebuilt.Everywhere Table.InStep :=
  ⟨merged_modify collection fun t member i kind => (inStep t member i kind).merge_build,
    inStep.modify (fun t step => step.reindex fun i _ => i.covers_build t.rows) collection⟩

theorem merged_optimized :
    let optimized := db.modify collection (Table.reindex Indexing.merge)
    optimized.merged = db.merged ∧ optimized.Everywhere Table.InStep :=
  ⟨merged_modify collection fun _ _ i _ => i.merge_merge,
    inStep.modify
      (fun _ step => step.reindex fun i covers => covers.of_merge i.merge_merge) collection⟩

theorem Everywhere.mapRows {f : Row → Row} (marking : Row.Marking f) :
    (db.modify collection (·.mapRows f)).Everywhere Table.InStep :=
  inStep.modify (fun _ step => step.mapRows marking) collection

end InStep

private theorem Arises.everywhere {P : Table → Prop}
    (empty : ∀ name specification tokenizer, P ⟨name, .indexed (.empty specification tokenizer), []⟩)
    (add : ∀ t r, P t → P (t.add r)) (flush : ∀ t, P t → P (t.reindex Indexing.flush))
    (withRank : ∀ rank t, P t → P (t.reindex (Indexing.withRank rank)))
    (build : ∀ t, P t → P (t.reindex (Indexing.build t.rows)))
    (merge : ∀ t, P t → P (t.reindex Indexing.merge))
    (mark : ∀ title time t, P t →
    P (markDeleted title time t)) {db : Database} (arises : db.Arises) :
    db.Everywhere P := by
  induction arises with
  | empty => exact nofun
  | withWriteAhead _ _ ih => exact ih
  | createCollection _ created ih =>
    intro t member
    rcases createCollection_cases created with ⟨rfl, -⟩ | ⟨-, -, tokenizer, -, rfl⟩
    · exact ih t member
    · rcases List.mem_append.mp member with before | added
      · exact ih t before
      · rw [List.mem_singleton.mp added]
        exact empty ..
  | add _ collection r ih => exact ih.modify (add · r) collection
  | flush _ ih => exact ih.map flush
  | setRank _ set ih => exact eq_of_setRank set ▸ ih.modify (withRank _) _
  | rebuild _ rebuilt ih => exact eq_of_rebuild rebuilt ▸ ih.modify build _
  | optimize _ optimized ih => exact eq_of_optimize optimized ▸ ih.modify merge _
  | softDelete _ deleted ih => exact eq_of_softDelete deleted ▸ ih.modify (mark _ _) _

/-- In a database that arises, every index says what the rows hold. -/
theorem Arises.inStep {db : Database} (arises : db.Arises) : ∀ t ∈ db.tables, t.InStep := by
  refine arises.everywhere (P := Table.InStep) Table.inStep_empty
    (fun t r h => h.add r) (fun t h => ?_)
    (fun rank t h => ?_) (fun t h => ?_) (fun t h => ?_) (fun title time t h => ?_)
  · exact h.reindex fun i covers => covers.of_merge i.merge_flush
  · exact h.reindex fun i covers => covers
  · exact h.reindex fun i _ => i.covers_build t.rows
  · exact h.reindex fun i covers => covers.of_merge i.merge_merge
  · exact markDeleted_eq title time t ▸ h.mapRows (Row.marking_setDeleted _ time)

private theorem le_foldl_max (numbers : List Nat) (least : Nat) :
    least ≤ numbers.foldl max least ∧ ∀ n ∈ numbers, n ≤ numbers.foldl max least := by
  induction numbers generalizing least with
  | nil => simp
  | cons first numbers ih =>
    obtain ⟨grows, others⟩ := ih (max least first)
    refine ⟨le_trans (le_max_left least first) grows, fun n member => ?_⟩
    rcases List.mem_cons.mp member with rfl | later
    · exact le_trans (le_max_right least n) grows
    · exact others n later

private theorem lt_nextRowid {t : Table} {r : Row} (member : r ∈ t.rows) : r.rowid < t.nextRowid :=
  Nat.lt_succ_of_le ((le_foldl_max _ 0).2 r.rowid (List.mem_map_of_mem member))

theorem Arises.ordered {db : Database} (arises : db.Arises) :
    ∀ t ∈ db.tables, t.rows.Pairwise (·.rowid < ·.rowid) := by
  have reindexed : ∀ (change : Indexing → Indexing) (t : Table),
    t.rows.Pairwise (·.rowid < ·.rowid) →
      (t.reindex change).rows.Pairwise (·.rowid < ·.rowid) := fun change t h =>
        (t.rows_reindex change).symm ▸ h
  refine arises.everywhere (P := fun t => t.rows.Pairwise (·.rowid < ·.rowid)) (fun _ _ _ => .nil)
    (fun t r ordered => ?_)
    (reindexed _) (fun _ => reindexed _) (fun t => reindexed _ t)
      (reindexed _) fun title time t ordered => ?_
  · rw [Table.rows_add, List.pairwise_append]
    refine ⟨ordered, List.pairwise_singleton _ _, fun earlier before last same => ?_⟩
    rw [List.mem_singleton.mp same]
    exact lt_nextRowid before
  · rw [markDeleted, List.pairwise_map]
    refine ordered.imp fun {a b} less => ?_
    split <;> split <;> exact less

end TextArchive.Store.Database
