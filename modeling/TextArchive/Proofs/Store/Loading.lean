import TextArchive.Proofs.Ingest.BestEffort
import TextArchive.Proofs.Store.Calls

/-!
What an ingestion makes of the rows of its collection: those of the records follow the ones there
were, numbered on from the greatest number, and index maintenance leaves them alone.
-/

set_option autoImplicit false
set_option relaxedAutoImplicit false

namespace TextArchive

open TextArchive.File (Path)
open TextArchive.Ingest
open TextArchive.Store (Database Engine Row Table Transacted)

namespace Store

/-- Rows with those of further records, numbered on from the greatest number. -/
def Row.following (rows : List Row) (records : List Record) : List Row :=
  rows ++ numberedFrom ((rows.map (·.rowid)).foldl max 0 + 1) records

private theorem Row.following_nil (rows : List Row) : following rows [] = rows := by
  simp [following, numberedFrom]

private theorem Row.following_append (rows : List Row) (first later : List Record) :
    following rows (first ++ later) = following (following rows first) later := by
  simp only [following, numberedFrom_append, List.map_append, List.foldl_append,
    greatest_numberedFrom, List.append_assoc]
  rw [Nat.add_right_comm]

section Adds

variable [Engine] {t : Table}

private theorem Table.Adds.acceptAll (adds : t.Adds) (records : List Record) :
    (t.acceptAll records).Adds := by
  induction records generalizing t with
  | nil => exact adds
  | cons r records ih => exact ih (adds.accept r).2

private theorem Table.Adds.reindex (adds : t.Adds) (change : Indexing → Indexing) :
    (t.reindex change).Adds := by
  obtain ⟨name, _ | _, rows⟩ := t
  · trivial
  · exact adds

theorem Table.adds_of_indexed (indexed : ∃ indexing, t.kind = .indexed indexing) : t.Adds := by
  obtain ⟨indexing, kind⟩ := indexed
  simp only [Table.Adds, kind]

end Adds

end Store

namespace Ingest.StoredCollection

/-- The rows of a collection; none if its name is not that of a table. -/
def rows (s : StoredCollection) : List Row :=
  (s.database.rows s.name).toOption.getD []

private theorem rows_of_find? {s : StoredCollection} {t : Table}
    (found : s.database.find? s.name = some (.table t)) :
    s.rows = t.rows := by
  simp [rows, Database.rows, found, Except.toOption]

variable [Engine] {s : StoredCollection}

private theorem table_insertBatch (adds : ∀ t, s.database.find? s.name = some (.table t) → t.Adds)
    {records : List Record} (taken : (FullTextCollection.insertBatch s records).1 = .ok ()) :
    ∃ u, (FullTextCollection.insertBatch s records).2.database.find? s.name =
    some (.table u) ∧ u.Adds ∧
      u.rows = Store.Row.following s.rows records := by
  obtain ⟨t, found, -, after⟩ := Transacted.table_of_insertBatch taken
  refine ⟨(t.acceptAll records).reindex Store.Indexing.flush, ?_,
    ((adds t found).acceptAll records).reindex _, ?_⟩
  · show Database.find? ((Transacted.settled s.database s.unjournaled).insertBatch s.name records).2.committed s.name = _
    rw [after, Transacted.settled, Database.find?_reindex, Database.find?_acceptAll found]
    rfl
  · rw [Table.rows_reindex, (adds t found).rows_acceptAll, rows_of_find? found]
    rfl

private theorem rows_insertEach {batches : List (List Record)} {loaded : StoredCollection}
    (adds : ∀ t, s.database.find? s.name = some (.table t) → t.Adds)
    (taken : insertEach s batches = (.ok (), loaded)) :
    loaded.name = s.name ∧ loaded.rows = Store.Row.following s.rows batches.flatten := by
  induction batches generalizing s with
  | nil =>
    cases taken
    exact ⟨rfl, (Store.Row.following_nil _).symm⟩
  | cons batch batches ih =>
    simp only [insertEach] at taken
    rcases answered : FullTextCollection.insertBatch s batch with ⟨e | _, next⟩
    · rw [answered] at taken
      cases taken
    · rw [answered] at taken
      obtain ⟨u, found, more, rows⟩ := table_insertBatch adds (congrArg Prod.fst answered)
      have name : next.name = s.name := congrArg (fun done => done.2.name) answered.symm
      rw [answered, ← name] at found
      obtain ⟨same, all⟩ := ih (fun t there => by cases found.symm.trans there; exact more) taken
      refine ⟨same.trans name, ?_⟩
      rw [all, rows_of_find? found, rows, List.flatten_cons, Store.Row.following_append]

private theorem insertEach_of_free (there : s.database.IsCollection s.name)
    {batches : List (List Record)}
    (free : ∀ batch ∈ batches, (StoreCall.insertBatch batch).IsFree) :
    (insertEach s batches).1 = .ok () := by
  induction batches generalizing s with
  | nil => rfl
  | cons batch batches ih =>
    obtain ⟨taken, after⟩ := insertBatch_of_free (free batch List.mem_cons_self) there
    simp only [insertEach]
    rcases answered : FullTextCollection.insertBatch s batch with ⟨e | _, next⟩
    · rw [answered] at taken
      cases taken
    · rw [answered] at after
      have name : next.name = s.name := congrArg (fun done => done.2.name) answered.symm
      exact ih (name ▸ after) fun later member => free later (List.mem_cons_of_mem batch member)

private theorem rows_take (weights : Weights) (step : MaintenanceStep) (name : String) :
    (Maintenance.take weights s step).2.database.rows name = s.database.rows name := by
  have after : ∀ result : Except Store.StoreError Database,
      (∀ db, result = .ok db → db.rows name = s.database.rows name) →
      (s.after result).2.database.rows name = s.database.rows name := by
    intro result same
    cases result with
    | error e => rfl
    | ok db => exact same db rfl
  cases step with
  | setRank =>
    exact after _ fun db set => Database.eq_of_setRank set ▸ s.database.rows_tended s.name (fun _ => _) name
  | rebuild => exact after _ fun db built => Database.eq_of_rebuild built ▸ s.database.rows_tended s.name _ name
  | optimize =>
    exact after _ fun db made => Database.eq_of_optimize made ▸ s.database.rows_tended s.name (fun _ => _) name

private theorem name_take (weights : Weights) (step : MaintenanceStep) :
    (Maintenance.take weights s step).2.name = s.name := by
  have after : ∀ result, (s.after result).2.name = s.name := by
    intro result
    cases result <;> rfl
  cases step <;> exact after _

/-- The rows of the files that an ingestion takes follow those there were if it succeeds. -/
theorem rows_ingest {options : Options} {build : Path → BuiltRecord} {source : List SourceItem}
    {report : Report} (adds : ∀ t, s.database.find? s.name = some (.table t) → t.Adds)
    (ingested : (Ingestion.ingest options build source s).result = .ok report) :
    (Ingestion.ingest options build source s).state.rows =
      Store.Row.following s.rows
      ((firstFiles options.maxFiles source).map fun p => (build p).record) := by
  obtain ⟨-, -, loaded, taken, state⟩ := taken_of_ingest ingested
  obtain ⟨name, rows⟩ := rows_insertEach adds taken
  have kept : (Maintenance.run options.weights loaded).2.2.name = loaded.name ∧
      (Maintenance.run options.weights loaded).2.2.rows = loaded.rows :=
    @maintenance_preserves _ _
      (fun sc : StoredCollection => sc.name = loaded.name ∧ sc.rows = loaded.rows)
      options.weights (fun sc step same => by
        refine ⟨(name_take options.weights step).trans same.1, ?_⟩
        rw [StoredCollection.rows, name_take, rows_take]
        exact same.2) _ ⟨rfl, rfl⟩
  rw [state, kept.2, rows, flatten_cut, List.nil_append]

theorem ingest_of_free (there : s.database.IsCollection s.name) {options : Options}
    (positive : 1 ≤ options.batchSize) (fits : options.batchSize ≤ BatchWriter.greatestBatch)
    {build : Path → BuiltRecord} {source : List SourceItem}
    (free : (StoreCall.insertBatch ((firstFiles options.maxFiles source).map fun p => (build p).record)).IsFree) :
    ∃ report, (Ingestion.ingest options build source s).result = .ok report := by
  have batches : ∀ batch ∈ cut options.batchSize []
    (((firstFiles options.maxFiles source).map build).map (·.record)),
      (StoreCall.insertBatch batch).IsFree := by
    intro batch member
    refine ⟨fun r inside => free.1 r ?_, free.2⟩
    have all := List.mem_flatten.mpr ⟨batch, member, inside⟩
    rwa [flatten_cut, List.nil_append, List.map_map] at all
  have taken := insertEach_of_free there batches
  generalize sent : insertEach s _ = answered at taken
  obtain ⟨_, loaded⟩ := answered
  cases taken
  exact ⟨_, (ingest_of_taken positive fits build source sent).1⟩

end Ingest.StoredCollection

end TextArchive
