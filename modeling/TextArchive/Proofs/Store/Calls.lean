import TextArchive.Ingest.Maintenance
import TextArchive.Proofs.Search.RankGrammar
import TextArchive.Proofs.Store.Ranked

/-!
What becomes of a collection whose store is called again and again: as long as nothing stands in
their way no call is refused, the rows are the records of all batches in the order of the calls, and
the rank is the one set last.
-/

set_option autoImplicit false
set_option relaxedAutoImplicit false

namespace TextArchive.Ingest

open TextArchive.Store (Database Engine Indexing Row StoreError Table Transacted)

/-- A call that can change the collection of a store. -/
inductive StoreCall where
  | insertBatch (records : List Record)
  | take (weights : Weights) (step : MaintenanceStep)

namespace StoreCall

def records : StoreCall → List Record
  | .insertBatch records => records
  | .take _ _ => []

def rank? : StoreCall → Option String
  | .take weights .setRank => some weights.expression
  | _ => none

def perform [Engine] (s : StoredCollection) : StoreCall → Except StoreError Unit × StoredCollection
  | .insertBatch records => FullTextCollection.insertBatch s records
  | .take weights step => Maintenance.take weights s step

def performAll [Engine] (s : StoredCollection) :
    List StoreCall → List (Except StoreError Unit) × StoredCollection
  | [] => ([], s)
  | call :: calls =>
    let (result, s) := call.perform s
    let (results, s) := performAll s calls
    (result :: results, s)

/-- The rank that calls set last, or the one before. -/
def rankAfter (rank : Option String) (calls : List StoreCall) : Option String :=
  calls.foldl (fun rank call => call.rank?.or rank) rank

end StoreCall

/-- What a step of index maintenance makes of a database with a collection. -/
def tendedBy (weights : Weights) (collection : String) (db : Database) : MaintenanceStep → Database
  | .setRank => db.modify collection (Table.reindex (Indexing.withRank weights.expression))
  | .rebuild => db.modify collection fun t => t.reindex (Indexing.build t.rows)
  | .optimize => db.modify collection (Table.reindex Indexing.merge)

section Take

variable [Engine] {s : StoredCollection} {weights : Weights} {step : MaintenanceStep}

/-- A collection that is there takes every step, as long as the weights that it is to have can be a
rank. -/
theorem take_stored (there : s.database.IsCollection s.name)
    (finite : step = .setRank → weights.allFinite = true) :
    Maintenance.take weights s step =
    (.ok (), { s with database := tendedBy weights s.name s.database step }) := by
  cases step with
  | setRank =>
    show s.after (s.database.setRank s.name weights.expression) = _
    rw [there.setRank_of_finite (finite rfl)]
    rfl
  | rebuild =>
    show s.after (s.database.rebuild s.name) = _
    rw [Database.rebuild, there.commandable]
    rfl
  | optimize =>
    show s.after (s.database.optimize s.name) = _
    rw [Database.optimize, there.commandable]
    rfl

end Take

/-- Whether nothing stands in the way of a call: a collection refuses none of its records,
transactions can be committed, and weights that it sets can be a rank. -/
def StoreCall.IsFree [Engine] : StoreCall → Prop
  | .insertBatch records =>
    (∀ r ∈ records, ∀ t : Table, (∃ indexing, t.kind = .indexed indexing) → Engine.refuses? t r = none) ∧
      ∀ db, Engine.refusesCommit? db = none
  | .take weights step => step = .setRank → weights.allFinite = true

private theorem refusal?_of_free [Engine] {t : Table}
    (indexed : ∃ indexing, t.kind = .indexed indexing) {records : List Record}
    (free : ∀ r ∈ records, ∀ t : Table, (∃ indexing, t.kind = .indexed indexing) → Engine.refuses? t r = none) :
    t.refusal? records = none := by
  induction records generalizing t with
  | nil => rfl
  | cons r records ih =>
    rw [Table.refusal?, free r List.mem_cons_self t indexed, Option.none_or]
    exact ih (Table.accept_of_indexed indexed r ▸ Table.indexed_add r indexed)
      fun later member => free later (List.mem_cons_of_mem r member)

theorem insertBatch_of_free [Engine] {s : StoredCollection} {records : List Record}
    (free : (StoreCall.insertBatch records).IsFree) (there : s.database.IsCollection s.name) :
    (FullTextCollection.insertBatch s records).1 = .ok () ∧
      (FullTextCollection.insertBatch s records).2.database.IsCollection s.name := by
  obtain ⟨t, indexing, found, kind⟩ := there
  have ended := Transacted.insertBatch_eq found s.unjournaled records
  rw [refusal?_of_free ⟨indexing, kind⟩ free.1, free.2] at ended
  refine ⟨congrArg Prod.fst ended, ?_⟩
  show Database.IsCollection
    ((Transacted.settled s.database s.unjournaled).insertBatch s.name records).2.committed s.name
  rw [ended]
  obtain ⟨_, accepted⟩ := Table.indexed_acceptAll ⟨indexing, kind⟩ records
  exact Database.isCollection_reindex _ ⟨_, _, Database.find?_acceptAll found records, accepted⟩

theorem StoreCall.isFree_of_size {records : List Record}
    (small : ∀ r ∈ records, Engine.size r ≤ Engine.greatestSize) :
    (StoreCall.insertBatch records).IsFree := by
  refine ⟨fun r member t ⟨indexing, kind⟩ => ?_, fun _ => rfl⟩
  simp only [Engine.refuses?, Engine.refusesBySize?, kind,
    Nat.not_lt.mpr (small r member), if_false]

/-- A collection of a name that holds records and has a rank. -/
structure StoredCollection.Has (s : StoredCollection) (name : String) (rank : Option String)
    (records : List Record) :
    Prop where
  called : s.name = name
  holds : ∃ held, s.database.Holds held ∧ held name = records
  ranked : s.database.Ranked name rank

namespace StoredCollection.Has

section

variable {s : StoredCollection} {name : String} {rank : Option String} {records : List Record}
  (has : s.Has name rank records)
include has

theorem rows : ∃ t indexing, s.database.find? name = some (.table t) ∧ t.kind = .indexed indexing ∧
    t.rows = Row.numberedFrom 1 records := by
  obtain ⟨t, indexing, found, kind, -⟩ := has.ranked.there
  obtain ⟨held, holds, rfl⟩ := has.holds
  exact ⟨t, indexing, found, kind, holds.rows name t found⟩

theorem count : s.database.count name = .ok records.length := by
  obtain ⟨t, -, found, -, rows⟩ := has.rows
  simp [Database.count, found, rows, Row.numberedFrom]

variable [Engine]

private theorem insertBatch {more : List Record} (free : (StoreCall.insertBatch more).IsFree) :
    (FullTextCollection.insertBatch s more).1 = .ok () ∧
      (FullTextCollection.insertBatch s more).2.Has name rank (records ++ more) := by
  obtain ⟨held, holds, rfl⟩ := has.holds
  have taken := (insertBatch_of_free free (has.called ▸ has.ranked.isCollection)).1
  have grown := Transacted.insertBatch_holds holds taken
  refine ⟨taken, has.called, ⟨_, grown, by rw [has.called]; simp⟩, ?_⟩
  exact (Database.keptUnranked_ranked name rank).insertBatch has.ranked s.unjournaled s.name more

private theorem take {weights : Weights} {step : MaintenanceStep}
    (free : (StoreCall.take weights step).IsFree) :
    (Maintenance.take weights s step).1 = .ok () ∧
      (Maintenance.take weights s step).2.Has name
      ((StoreCall.take weights step).rank?.or rank) records := by
  obtain ⟨held, holds, rfl⟩ := has.holds
  have there : s.database.IsCollection s.name := has.called ▸ has.ranked.isCollection
  have kept := Database.keptUnranked_ranked name rank
  have taken := take_stored there free
  cases step with
  | setRank =>
    have set : s.database.setRank s.name weights.expression = .ok
      (tendedBy weights s.name s.database .setRank) :=
      there.setRank_of_finite (free rfl)
    have ranked := has.ranked.setRank set
    rw [has.called, Store.Name.same_refl, if_pos rfl] at ranked
    rw [taken]
    exact ⟨rfl, has.called, ⟨held, holds.setRank set, rfl⟩, has.called ▸ ranked⟩
  | rebuild =>
    have built : s.database.rebuild s.name = .ok (tendedBy weights s.name s.database .rebuild) := by
      rw [Database.rebuild, there.commandable]
      rfl
    rw [taken]
    exact ⟨rfl, has.called, ⟨held, holds.rebuild built, rfl⟩, kept.rebuild has.ranked built⟩
  | optimize =>
    have made : s.database.optimize s.name = .ok
      (tendedBy weights s.name s.database .optimize) := by
      rw [Database.optimize, there.commandable]
      rfl
    rw [taken]
    exact ⟨rfl, has.called, ⟨held, holds.optimize made, rfl⟩, kept.optimize has.ranked made⟩

private theorem perform {call : StoreCall} (free : call.IsFree) :
    (call.perform s).1 = .ok () ∧ (call.perform s).2.Has name (call.rank?.or rank)
    (records ++ call.records) := by
  cases call with
  | insertBatch more => exact has.insertBatch free
  | take weights step =>
    rw [StoreCall.records, List.append_nil]
    exact has.take free

end

end StoredCollection.Has

/-- Calls in whose way nothing stands are taken however many there are, and the collection has what
they have made of it. -/
theorem StoredCollection.Has.performAll [Engine] {s : StoredCollection} {name : String}
    {rank : Option String} {records : List Record} (has : s.Has name rank records)
    {calls : List StoreCall} (free : ∀ call ∈ calls, call.IsFree) :
    (∀ result ∈ (StoreCall.performAll s calls).1, result = .ok ()) ∧
      (StoreCall.performAll s calls).2.Has name (StoreCall.rankAfter rank calls)
        (records ++ calls.flatMap StoreCall.records) := by
  induction calls generalizing s rank records with
  | nil => exact ⟨by simp [StoreCall.performAll], by simpa [StoreCall.performAll,
    StoreCall.rankAfter] using has⟩
  | cons call calls ih =>
    obtain ⟨ok, next⟩ := has.perform (free call List.mem_cons_self)
    obtain ⟨all, last⟩ := ih next fun later member => free later (List.mem_cons_of_mem call member)
    rw [List.append_assoc] at last
    refine ⟨fun result member => ?_, last⟩
    rcases List.mem_cons.mp member with rfl | later
    · exact ok
    · exact all result later

end TextArchive.Ingest
