import TextArchive.Proofs.Store.Index

/-!
Changes of rows that set deletion times and nothing else. An index says nothing of deletion times,
so that it stays in step with rows that are changed in this way.
-/

set_option autoImplicit false
set_option relaxedAutoImplicit false

namespace TextArchive.Store

namespace Row

/-- A change of rows that sets deletion times and nothing else. -/
def Marking (f : Row → Row) : Prop :=
  ∀ r, f r = { r with deletedAt := (f r).deletedAt }

def setDeleted (chosen : Row → Bool) (time : Option String) (r : Row) : Row :=
  if chosen r then { r with deletedAt := time } else r

theorem marking_setDeleted (chosen : Row → Bool) (time : Option String) :
    Marking (setDeleted chosen time) := by
  intro r
  unfold setDeleted
  split <;> rfl

@[simp] theorem isLive_setDeleted (chosen : Row → Bool) (time : String) (r : Row) :
    (setDeleted chosen (some time) r).isLive = (r.isLive && !chosen r) := by
  cases named : chosen r <;> simp [setDeleted, isLive, named]

@[simp] theorem isLive_setDeleted_none (chosen : Row → Bool) (r : Row) :
    (setDeleted chosen none r).isLive = (r.isLive || chosen r) := by
  cases named : chosen r <;> simp [setDeleted, isLive, named]

theorem isLive_restored {hidden : Row → Bool} {time : String} {restored : Nat → Bool} {r : Row}
    (had : restored r.rowid = true → r.isLive = true)
    (covers : r.isLive = true → hidden r = true → restored r.rowid = true) :
    (setDeleted (restored ·.rowid) none (setDeleted hidden (some time) r)).isLive = r.isLive := by
  have number : (setDeleted hidden (some time) r).rowid = r.rowid := by
    rw [marking_setDeleted _ _ r]
  rw [isLive_setDeleted_none, isLive_setDeleted, number]
  cases back : restored r.rowid with
  | true => simp [had back]
  | false =>
    cases live : r.isLive with
    | false => rfl
    | true =>
      have shown : hidden r = false :=
        Bool.eq_false_iff.mpr fun chosen => by simp [covers live chosen] at back
      simp [shown]

theorem Marking.comp {f g : Row → Row} (outer : Marking g) (inner : Marking f) :
    Marking (g ∘ f) := by
  intro r
  rw [Function.comp_apply, outer (f r), inner r]

end Row

namespace Table

def mapRows (t : Table) (f : Row → Row) : Table :=
  { t with rows := t.rows.map f }

private theorem mapRows_reindex (change : Indexing → Indexing) (f : Row → Row) (t : Table) :
    (t.reindex change).mapRows f = (t.mapRows f).reindex change := by
  obtain ⟨name, _ | _, rows⟩ := t <;> rfl

theorem InStep.mapRows {t : Table} (inStep : t.InStep) {f : Row → Row} (marking : Row.Marking f) :
    (t.mapRows f).InStep := by
  intro indexing kind
  rw [Indexing.Covers, inStep indexing kind, Table.mapRows, List.map_map]
  refine List.map_congr_left fun r _ => ?_
  rw [Function.comp_apply, marking r]
  rfl

end Table

namespace Database

theorem markDeleted_eq (title : String) (time : Option String) (t : Table) :
    markDeleted title time t = t.mapRows (Row.setDeleted (fun r => r.title = title) time) := by
  have same : (fun r : Row => if r.title = title then { r with deletedAt := time } else r) =
      Row.setDeleted (fun r => r.title = title) time := by
    funext r
    simp only [Row.setDeleted, decide_eq_true_eq]
  rw [markDeleted, same, Table.mapRows]

theorem find?_mapRows {db : Database} {collection : String} {t : Table}
    (found : db.find? collection = some (.table t))
    (f : Row → Row) : (db.modify collection (·.mapRows f)).find? collection = some
    (.table (t.mapRows f)) := by
  have named : Name.same t.name collection = true := same_of_find?_table found
  rw [find?_modify db collection (·.mapRows f) (fun _ _ => ⟨rfl, rfl⟩), found,
    Option.map_some, Named.change, if_pos named]

theorem merged_mapRows (db : Database) (collection : String) (f : Row → Row) :
    (db.modify collection (·.mapRows f)).merged = db.merged.modify collection (·.mapRows f) := by
  simp only [merged, reindex, modify, List.map_map]
  congr 2
  funext t
  simp only [Function.comp_apply, Table.name_reindex]
  split
  · exact (Table.mapRows_reindex ..).symm
  · rfl

end Database

end TextArchive.Store
