import TextArchive.Proofs.Store.History
import TextArchive.Store.Transaction

/-!
Batches in transactions: all records of a batch are accepted in their order, or the transaction is
given up, however many of them had been accepted when one was refused. No transaction is left open,
and where a journal is kept the database is as it was before one that was given up.
-/

set_option autoImplicit false
set_option relaxedAutoImplicit false

namespace TextArchive.Store

namespace Table

private theorem nextRowid_of_last {t u : Table} {r : Record}
    (rows : u.rows = t.rows ++ [Row.ofRecord t.nextRowid r]) : u.nextRowid = t.nextRowid + 1 := by
  rw [nextRowid, rows, List.map_append, List.foldl_append]
  exact congrArg (· + 1) (Nat.max_eq_right (Nat.le_succ _))

variable [Engine]

def acceptAll (t : Table) (records : List Record) : Table :=
  records.foldl accept t

/-- The refusal of the first of some records that is refused when its turn comes. -/
def refusal? : Table → List Record → Option Refusal
  | _, [] => none
  | t, r :: records => (Engine.refuses? t r).or ((t.accept r).refusal? records)

/-- The records before the first one that is refused when its turn comes. -/
def taken : Table → List Record → List Record
  | _, [] => []
  | t, r :: records => if (Engine.refuses? t r).isSome then [] else r :: (t.accept r).taken records

/-- Whether a table adds each record that it does not refuse as a row of its own. A collection does;
an ordinary table may skip records or put them in the place of others. -/
def Adds (t : Table) : Prop :=
  match t.kind with
  | .indexed _ => True
  | .plain _ => ∀ rows r, Engine.rowsAfter { t with rows } r = rows ++
    [Row.ofRecord { t with rows }.nextRowid r]

section Accept

variable (t : Table) (r : Record) (records : List Record)

@[simp] theorem name_accept : (t.accept r).name = t.name := by
  unfold accept
  split
  · exact t.name_add r
  · rfl

@[simp] theorem auxiliaries_accept : (t.accept r).auxiliaries = t.auxiliaries := by
  cases kind : t.kind with
  | indexed indexing => simp only [accept, kind, auxiliaries_add]
  | plain longest => simp only [accept, auxiliaries, kind]

@[simp] theorem name_acceptAll : (t.acceptAll records).name = t.name := by
  induction records generalizing t with
  | nil => rfl
  | cons r records ih => rw [acceptAll, List.foldl_cons, ← acceptAll, ih, name_accept]

@[simp] theorem auxiliaries_acceptAll : (t.acceptAll records).auxiliaries = t.auxiliaries := by
  induction records generalizing t with
  | nil => rfl
  | cons r records ih => rw [acceptAll, List.foldl_cons, ← acceptAll, ih, auxiliaries_accept]

private theorem taken_of_refusal? (accepted : t.refusal? records = none) :
    t.taken records = records := by
  induction records generalizing t with
  | nil => rfl
  | cons r records ih =>
    obtain ⟨fits, later⟩ := Option.or_eq_none_iff.mp accepted
    rw [taken, fits, ih (t.accept r) later]
    rfl

end Accept

theorem indexed_acceptAll {t : Table} (indexed : ∃ indexing, t.kind = .indexed indexing)
    (records : List Record) :
    ∃ indexing, (t.acceptAll records).kind = .indexed indexing := by
  induction records generalizing t with
  | nil => exact indexed
  | cons r records ih => exact ih (accept_of_indexed indexed r ▸ indexed_add r indexed)

theorem Adds.accept {t : Table} (adds : t.Adds) (r : Record) :
    (t.accept r).rows = t.rows ++ [Row.ofRecord t.nextRowid r] ∧ (t.accept r).Adds := by
  obtain ⟨name, indexing | longest, rows⟩ := t
  · exact ⟨Table.rows_add .., trivial⟩
  · exact ⟨adds rows r, adds⟩

theorem Adds.rows_acceptAll {t : Table} (adds : t.Adds) (records : List Record) :
    (t.acceptAll records).rows = t.rows ++ Row.numberedFrom t.nextRowid records := by
  induction records generalizing t with
  | nil => simp [acceptAll, Row.numberedFrom]
  | cons r records ih =>
    obtain ⟨rows, still⟩ := adds.accept r
    have later : (t.acceptAll (r :: records)).rows = ((t.accept r).acceptAll records).rows := rfl
    rw [later, ih still, rows, nextRowid_of_last rows, Row.numberedFrom_cons,
      List.append_assoc, List.singleton_append]

end Table

namespace Database

variable [Engine]

private theorem insert_of_insertable {db : Database} {collection : String} {t : Table} (r : Record)
    (found : db.find? collection = some (.table t)) :
    db.insert collection r =
      match Engine.refuses? t r with
      | some refusal => .error refusal
      | none => .ok (db.modify collection (·.accept r)) := by
  cases refused : Engine.refuses? t r <;> simp only [insert, insertable_ok.mpr found, refused]

def acceptAll (db : Database) (collection : String) (records : List Record) : Database :=
  db.modify collection (·.acceptAll records)

private theorem acceptAll_nil (db : Database) (collection : String) :
    db.acceptAll collection [] = db := by
  simp [acceptAll, modify, Table.acceptAll]

private theorem acceptAll_cons (db : Database) (collection : String) (r : Record)
    (records : List Record) :
    db.acceptAll collection (r :: records) = (db.modify collection (·.accept r)).acceptAll
    collection records := by
  rw [acceptAll, acceptAll, modify_modify db collection fun t => t.name_accept r]
  rfl

private theorem find?_accept {db : Database} {collection : String} {t : Table}
    (found : db.find? collection = some (.table t))
    (r : Record) : (db.modify collection (·.accept r)).find? collection = some
    (.table (t.accept r)) := by
  rw [find?_modify db collection _ fun _ _ => by simp, found]
  simp [Named.change, same_of_find?_table found]

theorem find?_acceptAll {db : Database} {collection : String} {t : Table}
    (found : db.find? collection = some (.table t)) (records : List Record) :
    (db.acceptAll collection records).find? collection = some (.table (t.acceptAll records)) := by
  rw [acceptAll, find?_modify db collection _ fun _ _ => by simp, found]
  simp [Named.change, same_of_find?_table found]

/-- What is left, on a medium, of a database whose table has accepted records in a transaction that
has been given up without a journal. -/
def leftAfter (db : Database) (medium : Medium) (collection : String) (taken : List Record) :
    Database :=
  db.modify collection fun t => t.left medium (t.acceptAll taken)

private theorem left_acceptAll (db : Database) (medium : Medium) (collection : String)
    (taken : List Record) :
    Database.left medium db (db.acceptAll collection taken) =
    db.leftAfter medium collection taken := by
  simp only [Database.left, acceptAll, leftAfter, modify, List.zipWith_map_right, List.zipWith_self]
  congr 1
  refine List.map_congr_left fun t _ => ?_
  split
  · rfl
  · exact t.left_self medium

variable {held : String → List Record}

private theorem Holds.acceptAll {db : Database} (holds : db.Holds held) {collection : String}
    {t : Table} (found : db.find? collection = some (.table t)) (records : List Record) :
    (db.acceptAll collection records).Holds fun name =>
      if Name.same collection name then held name ++ records else held name := by
  induction records generalizing db held t with
  | nil =>
    rw [acceptAll_nil]
    simpa using holds
  | cons r records ih =>
    have after := ih (holds.accept found r) (find?_accept found r)
    have same : (fun name => if Name.same collection name then held name ++ r :: records else
      held name) =
        fun name => if Name.same collection name then
          (if Name.same collection name then held name ++ [r] else held name) ++ records
        else if Name.same collection name then held name ++ [r] else held name := by
      funext name
      by_cases concerned : Name.same collection name = true <;> simp [concerned]
    rw [acceptAll_cons]
    exact same ▸ after

section Sound

variable {db : Database} (sound : db.Sound) (collection : String) (records : List Record)
include sound

private theorem Sound.acceptAll :
    Change collection db (db.acceptAll collection records) ∧
    (db.acceptAll collection records).Sound := by
  have keeps : ∀ t ∈ db.tables, (t.acceptAll records).name = t.name ∧
      ∃ indexing, (t.acceptAll records).kind = .indexed indexing :=
    fun t member =>
      ⟨Table.name_acceptAll .., Table.indexed_acceptAll (sound.indexed t member) records⟩
  exact ⟨.modify sound keeps, sound.modify keeps⟩

private theorem Sound.leftAfter (medium : Medium) :
    Change collection db (db.leftAfter medium collection records) ∧
      (db.leftAfter medium collection records).Sound := by
  have keeps : ∀ t ∈ db.tables, (t.left medium (t.acceptAll records)).name = t.name ∧
      ∃ indexing, (t.left medium (t.acceptAll records)).kind = .indexed indexing := by
    intro t member
    obtain ⟨indexing, kind⟩ := sound.indexed t member
    obtain ⟨segments, pending, left⟩ := Table.kind_left medium (t.acceptAll records) kind
    exact ⟨Table.name_left .., _, left⟩
  exact ⟨.modify sound keeps, sound.modify keeps⟩

end Sound

end Database

namespace Transacted

variable [Engine] {collection : String}

private theorem rollback_undo (t : Transacted) (working : Database) :
    (t.undo working).rollback.2 = t.undo working := by
  unfold undo
  split <;> rfl

private theorem undo_acceptAll (db : Database) (unjournaled : Option Medium) (taken : List Record) :
    (settled db unjournaled).undo (db.acceptAll collection taken) =
      settled ((unjournaled.map (db.leftAfter · collection taken)).getD db) unjournaled := by
  cases unjournaled with
  | none => rfl
  | some medium =>
    simp only [undo, settled, Database.left_acceptAll, Option.map_some, Option.getD_some]

private theorem insertEach_eq (committed : Database) (unjournaled : Option Medium)
    {working : Database} {t : Table} (found : working.find? collection = some (.table t))
    (records : List Record) :
    insertEach ⟨committed, some working, unjournaled⟩ collection records =
      match t.refusal? records with
      | none => (.ok (), ⟨committed, some (working.acceptAll collection records), unjournaled⟩)
      | some refusal =>
        (.error refusal.error,
          if refusal.endsTransaction then
            (settled committed unjournaled).undo (working.acceptAll collection (t.taken records))
          else ⟨committed, some (working.acceptAll collection (t.taken records)), unjournaled⟩) := by
  induction records generalizing working t with
  | nil => simp [insertEach, Table.refusal?, Database.acceptAll_nil]
  | cons r records ih =>
    have inserted := Database.insert_of_insertable r found
    cases refused : Engine.refuses? t r with
    | some refusal =>
      simp only [refused] at inserted
      simp only [insertEach, execute, current, Option.getD_some, inserted, Table.refusal?,
        Table.taken, refused, Option.some_or, Option.isSome_some, if_true, Database.acceptAll_nil]
      rfl
    | none =>
      simp only [refused] at inserted
      simp only [insertEach, execute, current, Option.getD_some, inserted, Table.refusal?,
        Table.taken, refused, Option.none_or, Option.isSome_none, Bool.false_eq_true, if_false,
        Database.acceptAll_cons, ih (Database.find?_accept found r)]

/-- A batch for a table is committed if none of its records nor the commit is refused, and otherwise
what had been accepted is given up. -/
theorem insertBatch_eq {db : Database} {t : Table} (found : db.find? collection = some (.table t))
    (unjournaled : Option Medium) (records : List Record) :
    (settled db unjournaled).insertBatch collection records =
      match t.refusal? records, Engine.refusesCommit? (db.acceptAll collection records) with
      | some refusal, _ =>
        (.error refusal.error,
          (settled db unjournaled).undo (db.acceptAll collection (t.taken records)))
      | none, some e =>
        (.error e, (settled db unjournaled).undo (db.acceptAll collection (t.taken records)))
      | none, none =>
        (.ok (), settled ((db.acceptAll collection records).reindex Indexing.flush) unjournaled) := by
  have begun : (settled db unjournaled).begin = .ok ⟨db, some db, unjournaled⟩ := rfl
  simp only [insertBatch, begun, insertAll, current, Option.getD_some,
    Database.insertable_ok.mpr found, insertEach_eq db unjournaled found records]
  cases refused : t.refusal? records with
  | some refusal =>
    simp only []
    split
    · rw [rollback_undo]
    · rfl
  | none =>
    cases committed : Engine.refusesCommit? (db.acceptAll collection records) with
    | some e =>
      simp only [conclude, commit, committed, t.taken_of_refusal? records refused]
      rfl
    | none =>
      simp only [conclude, commit, committed]
      rfl

theorem insertBatch_cases (db : Database) (unjournaled : Option Medium) (collection : String)
    (records : List Record) :
    (∃ t, db.find? collection = some (.table t) ∧ t.refusal? records = none ∧
      (settled db unjournaled).insertBatch collection records =
        (.ok (), settled ((db.acceptAll collection records).reindex Indexing.flush) unjournaled)) ∨
    ∃ e taken, (settled db unjournaled).insertBatch collection records =
      (.error e,
      settled ((unjournaled.map (db.leftAfter · collection taken)).getD db) unjournaled) := by
  cases prepared : db.insertable collection with
  | error e =>
    refine .inr ⟨e, [], ?_⟩
    rw [← undo_acceptAll, Database.acceptAll_nil]
    simp only [insertBatch, begin, settled, insertAll, current, Option.getD_some, prepared]
    rfl
  | ok t =>
    have found := Database.insertable_ok.mp prepared
    have done := insertBatch_eq found unjournaled records
    split at done
    · exact .inr ⟨_, _, undo_acceptAll db unjournaled _ ▸ done⟩
    · exact .inr ⟨_, _, undo_acceptAll db unjournaled _ ▸ done⟩
    · rename_i accepted _
      exact .inl ⟨t, found, accepted, done⟩

/-- No transaction is left open, and where a journal is kept a refused batch leaves what was
there. -/
theorem insertBatch_settled (db : Database) (unjournaled : Option Medium) (collection : String)
    (records : List Record) :
    let done := (settled db unjournaled).insertBatch collection records
    done.2 = settled done.2.committed unjournaled ∧
      (unjournaled = none → ∀ e, done.1 = .error e → done.2 = settled db none) := by
  intro done
  rcases insertBatch_cases db unjournaled collection records with
    ⟨t, -, -, taken⟩ | ⟨e, taken, refused⟩
  · simp only [done, taken]
    exact ⟨rfl, nofun⟩
  · simp only [done, refused]
    refine ⟨rfl, ?_⟩
    rintro rfl _ _
    rfl

theorem table_of_insertBatch {db : Database} {unjournaled : Option Medium} {records : List Record}
    (ok : ((settled db unjournaled).insertBatch collection records).1 = .ok ()) :
    ∃ t, db.find? collection = some (.table t) ∧ t.refusal? records = none ∧
      ((settled db unjournaled).insertBatch collection records).2 =
        settled ((db.acceptAll collection records).reindex Indexing.flush) unjournaled := by
  rcases insertBatch_cases db unjournaled collection records with
    ⟨t, found, accepted, done⟩ | ⟨e, taken, refused⟩
  · exact ⟨t, found, accepted, congrArg Prod.snd done⟩
  · rw [refused] at ok
    cases ok

/-- However a batch is answered, it concerns the collection of its name alone, and only collections
take it. -/
theorem insertBatch_sound {db : Database} (sound : db.Sound) (unjournaled : Option Medium)
    (collection : String) (records : List Record) :
    let done := (settled db unjournaled).insertBatch collection records
    Database.Change collection db done.2.committed ∧ done.2.committed.Sound ∧
      (done.1 = .ok () → db.IsCollection collection) := by
  intro done
  rcases insertBatch_cases db unjournaled collection records with
    ⟨t, found, -, ended⟩ | ⟨e, taken, ended⟩
  · obtain ⟨change, after⟩ := sound.acceptAll collection records
    simp only [done, ended]
    exact ⟨change.trans (.flush collection _), after.reindex _, fun _ => sound.isCollection found⟩
  · simp only [done, ended]
    cases unjournaled with
    | none => exact ⟨.refl _ _, sound, nofun⟩
    | some medium => exact ⟨(sound.leftAfter collection taken medium).1,
      (sound.leftAfter collection taken medium).2, nofun⟩

/-- A database of collections takes a batch as the records that are added under the name. -/
theorem insertBatch_holds {db : Database} {held : String → List Record} (holds : db.Holds held)
    {unjournaled : Option Medium} {records : List Record}
    (ok : ((settled db unjournaled).insertBatch collection records).1 = .ok ()) :
    ((settled db unjournaled).insertBatch collection records).2.committed.Holds fun name =>
      if Name.same collection name then held name ++ records else held name := by
  obtain ⟨t, found, -, after⟩ := table_of_insertBatch ok
  rw [after]
  exact (holds.acceptAll found records).flush

end Transacted

end TextArchive.Store
