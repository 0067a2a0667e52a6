import TextArchive.Proofs.Session.Keeping
import TextArchive.Proofs.Store.Loading
import TextArchive.Search.Cursor

/-!
Batches in sessions. A batch that is taken adds a row for each of its records, unless its table
makes something else of them; after one that is refused everything goes on as if it had never been
asked for, unless the journal mode does without a journal.
-/

set_option autoImplicit false
set_option relaxedAutoImplicit false

namespace TextArchive

open TextArchive.File (Path)
open TextArchive.Ingest
open TextArchive.Store (Connection Database Engine Row Storage StoreError Table Transacted)

/-- What an operation gives back. What a connection reads depends on how many cursors it has
opened. -/
inductive Answer where
  | done (result : Except StoreError Unit)
  | connected (events : List Event) (result : Except IngestError Connection)
  | ran (events : List Event) (result : Except IngestError Report)
  | maintained (events : List Event) (report : MaintenanceReport)
  | found (after : Nat → Except SearchError (List Hit) × Nat)
  | counted (after : Nat → Except StoreError Nat × Nat)
  | closed

namespace Session

section

variable [Engine]

def answerUse (s : Storage) (c : Connection) : Use → Answer
  | .insertBatch records => .done (FullTextCollection.insertBatch (c.stored s) records).1
  | .setRank weights => .done (FullTextCollection.setRank (c.stored s) weights).1
  | .rebuild => .done (FullTextCollection.rebuild (c.stored s)).1
  | .optimize => .done (FullTextCollection.optimize (c.stored s)).1
  | .maintain weights =>
    .maintained (Maintenance.run weights (c.stored s)).1 (Maintenance.run weights (c.stored s)).2.1
  | .ingest options source =>
    .ran (Ingestion.ingestConnected options source s c).events
      (Ingestion.ingestConnected options source s c).result
  | .search text topK => .found fun opened => searchAfter opened (s.database c.key) c.collection text topK
  | .count => .counted fun opened => countAfter opened (s.database c.key) c.collection
  | .close => .closed

/-- What an operation gives back in a session; nothing if it is meant for a connection that is not
there. -/
def answer? (s : Session) : Operation → Option Answer
  | .connect path config =>
    some (.connected (s.storage.connect path config).events (s.storage.connect path config).result)
  | .connectExisting path collection =>
    some (.connected (s.storage.connectExisting path collection).events
      (s.storage.connectExisting path collection).result)
  | .run options root path config =>
    some (.ran (Ingestion.run options root path config s.storage).events
      (Ingestion.run options root path config s.storage).result)
  | .use n use => s.connections[n]?.map fun c => answerUse s.storage c use

def answers (s : Session) : List Operation → List (Option Answer)
  | [] => []
  | operation :: operations => s.answer? operation :: (s.perform operation).answers operations

/-- Sessions that differ at most in the batches that have been noted. -/
structure Alike (s s' : Session) : Prop where
  storage : s'.storage = s.storage
  connections : s'.connections = s.connections

section Alike

variable {s s' : Session} (alike : s.Alike s')
include alike

private theorem Alike.answer? (operation : Operation) :
    s'.answer? operation = s.answer? operation := by
  cases operation <;> simp only [Session.answer?, alike.storage, alike.connections]

private theorem Alike.use (n : Nat) (c : Connection) (use : Use) :
    (s.use n c use).Alike (s'.use n c use) := by
  have storage := alike.storage
  have connections := alike.connections
  cases use <;> constructor <;> simp only [Session.use, Session.keep, Session.note, storage, connections]

private theorem Alike.perform (operation : Operation) :
    (s.perform operation).Alike (s'.perform operation) := by
  have storage := alike.storage
  have connections := alike.connections
  cases operation with
  | connect path config => constructor <;> simp only [Session.perform, connected, storage, connections]
  | connectExisting path collection => constructor <;> simp only [Session.perform, connected,
    storage, connections]
  | run options root path config => constructor <;> simp only [Session.perform, note, storage, connections]
  | use n use =>
    simp only [Session.perform, connections]
    cases s.connections[n]? with
    | none => exact alike
    | some c => exact alike.use n c use

private theorem Alike.performAll (operations : List Operation) :
    (operations.foldl Session.perform s).Alike (operations.foldl Session.perform s') ∧
      s'.answers operations = s.answers operations := by
  induction operations generalizing s s' with
  | nil => exact ⟨alike, rfl⟩
  | cons operation operations ih =>
    obtain ⟨later, same⟩ := ih (alike.perform operation)
    refine ⟨later, ?_⟩
    simp only [answers, alike.answer? operation, same]

end Alike

section Batch

variable {s : Session} {n : Nat} {c : Connection} (opened : s.connections[n]? = some c)
    (records : List Record)
include opened

private theorem perform_insertBatch :
    let batch :=
      (Transacted.settled (s.storage.database c.key) (c.unjournaled s.storage)).insertBatch
      c.collection records
    s.perform (.use n (.insertBatch records)) =
      (s.keep c { c.stored s.storage with database := batch.2.committed }).note
        [⟨c.key, c.collection, isJournaled s.storage c, records, batch.1⟩] := by
  intro batch
  simp only [perform, opened, Option.elim_some]
  rfl

private theorem answer?_insertBatch :
    s.answer? (.use n (.insertBatch records)) =
      some (.done ((Transacted.settled (s.storage.database c.key)
      (c.unjournaled s.storage)).insertBatch c.collection records).1) := by
  simp only [answer?, opened, Option.map_some]
  rfl

private theorem database_insertBatch (known : c.key < s.storage.databases.length) :
    (s.perform (.use n (.insertBatch records))).storage.database c.key = ((Transacted.settled
      (s.storage.database c.key)
        (c.unjournaled s.storage)).insertBatch c.collection records).2.committed := by
  rw [perform_insertBatch opened]
  simp only [note, keep, Connection.keep, Storage.database_setDatabase, known, and_self, if_true]

end Batch

/-- A batch handed over through a connection is answered with the first refusal of its table or of
the commit, if there is one, and in any case no transaction stays open. If it is taken by a
collection, or by an ordinary table that neither skips records nor puts them in the place of others,
all its records follow the old rows in their order, numbered on from the greatest number. If it is
refused while a journal is kept, files, databases and connections are as they were, and all later
operations give back and leave what they would have without it. -/
theorem batch_all_or_nothing {s : Session} {n : Nat} {c : Connection}
    (opened : s.connections[n]? = some c) (known : c.key < s.storage.databases.length)
    (records : List Record) :
    let before := s.storage.database c.key
    let batch := (Transacted.settled before (c.unjournaled s.storage)).insertBatch c.collection records
    let s' := s.perform (.use n (.insertBatch records))
    let after := s'.storage.database c.key
    s.answer? (.use n (.insertBatch records)) = some (.done batch.1) ∧
    batch.2 = .settled after (c.unjournaled s.storage) ∧
    (∀ t, before.find? c.collection = some (.table t) →
      batch.1 = match t.refusal? records, Engine.refusesCommit?
        (before.acceptAll c.collection records) with
        | some refusal, _ => .error refusal.error
        | none, some e => .error e
        | none, none => .ok ()) ∧
    (batch.1 = .ok () → ∃ t, before.find? c.collection = some (.table t) ∧
      (t.Adds →
        after.rows c.collection = .ok
          (t.rows ++ records.mapIdx fun i r => Row.ofRecord (t.nextRowid + i) r) ∧
        after.count c.collection = .ok (t.rows.length + records.length))) ∧
    (c.unjournaled s.storage = none → ∀ e, batch.1 = .error e →
      s'.storage = s.storage ∧ s'.connections = s.connections ∧ ∀ later : List Operation,
        let with_batch := later.foldl perform s'
        let without := later.foldl perform s
        s'.answers later = s.answers later ∧ with_batch.storage = without.storage ∧
          with_batch.connections = without.connections) := by
  intro before batch s' after
  have left : after = batch.2.committed := database_insertBatch opened records known
  obtain ⟨ended, undone⟩ := Transacted.insertBatch_settled before (c.unjournaled s.storage)
    c.collection records
  refine ⟨answer?_insertBatch opened records, ?_, fun t found => ?_, fun ok => ?_,
    fun journaled e refused => ?_⟩
  · rw [left]
    exact ended
  · simp only [batch, Transacted.insertBatch_eq found]
    cases t.refusal? records with
    | some refusal => rfl
    | none => cases Engine.refusesCommit? (before.acceptAll c.collection records) <;> rfl
  · obtain ⟨t, found, -, taken⟩ := Transacted.table_of_insertBatch ok
    refine ⟨t, found, fun adds => ?_⟩
    have grown : ∃ u, after.find? c.collection = some (.table u) ∧
        u.rows = t.rows ++ Row.numberedFrom t.nextRowid records := by
      refine ⟨(t.acceptAll records).reindex Store.Indexing.flush, ?_, ?_⟩
      · rw [left, taken, Transacted.settled, Database.find?_reindex, Database.find?_acceptAll found]
        rfl
      · rw [Table.rows_reindex, adds.rows_acceptAll]
    obtain ⟨u, there, rows⟩ := grown
    refine ⟨?_, ?_⟩
    · rw [Database.rows, there]
      exact congrArg Except.ok rows
    · simp [Database.count, there, rows, Row.numberedFrom]
  · have unchanged : batch.2.committed = before := by
      rw [undone journaled e refused]
      rfl
    have alike : s.Alike s' := by
      have storage : s'.storage = c.keep s.storage (c.stored s.storage) := by
        refine (congrArg Session.storage (perform_insertBatch opened records)).trans ?_
        exact congrArg (fun database => c.keep s.storage { c.stored s.storage with database }) unchanged
      refine ⟨?_, ?_⟩
      · rw [storage, Connection.keep_stored]
      · exact (congrArg Session.connections (perform_insertBatch opened records)).trans rfl
    refine ⟨alike.storage, alike.connections, fun later => ?_⟩
    obtain ⟨same, answers⟩ := alike.performAll later
    exact ⟨answers, same.storage, same.connections⟩

end

/-- An ordinary table that admits three characters has a row, and the middle one of three records
does not fit. What is added afterwards gets the numbers that it would have got without that
batch. -/
theorem batch_all_or_nothing_of_long_content :
    let notes : Table := ⟨"notes", .plain 3, [⟨1, "a", "", "one", "", none⟩]⟩
    let c : Connection := ⟨0, .file, .ofString "notes.db", "notes", none, .unasked .delete⟩
    let s : Session := ⟨⟨⟨[], []⟩, [⟨false, [notes]⟩], [0]⟩, [c], []⟩
    let batch : List Record := [{ content := "two" }, { content := "three" }, { content := "six" }]
    let s' := s.perform (.use 0 (.insertBatch batch))
    let next : Operation := .use 0 (.insertBatch [{ content := "ten" }])
    s.answer? (.use 0 (.insertBatch batch)) = some (.done (.error (.contentTooLong 3))) ∧
      (s'.storage.database 0).rows "notes" = .ok notes.rows ∧
      ((s'.perform next).storage.database 0).rows "notes" =
        .ok [⟨1, "a", "", "one", "", none⟩, ⟨2, "", "", "ten", "", none⟩] := by
  intro notes c s batch s' next
  have found : (s.storage.database 0).find? "notes" = some (.table notes) := by decide +kernel
  have second : notes.refusal? batch = some ⟨.contentTooLong 3, false⟩ := by decide +kernel
  obtain ⟨answered, -, result, -, refusal⟩ :=
    batch_all_or_nothing (s := s) (n := 0) (c := c) rfl (by decide) batch
  have refused := result notes found
  rw [second] at refused
  obtain ⟨storage, -, later⟩ := refusal rfl _ refused
  refine ⟨?_, ?_, ?_⟩
  · rw [answered, refused]
  · show (s'.storage.database 0).rows "notes" = _
    rw [storage]
    decide +kernel
  · obtain ⟨-, same, -⟩ := later [next]
    rw [List.foldl_cons, List.foldl_nil, List.foldl_cons, List.foldl_nil] at same
    rw [same]
    decide +kernel

def unjournaled : Session :=
  let documents : Table := ⟨"documents", .indexed (.empty "unicode61" .standard), []⟩
  ⟨⟨⟨[], []⟩, [⟨false, [documents]⟩], [0]⟩,
    [⟨0, .memory, .ofString ":memory:", "documents", some .off,
      .asked .off { journalMode := "OFF" }⟩], []⟩

private theorem utf8ByteSize_replicate (n : Nat) :
    (String.ofList (List.replicate n 'x')).utf8ByteSize = n := by
  induction n with
  | zero => rfl
  | succ n ih =>
    rw [List.replicate_succ, String.ofList_cons, String.utf8ByteSize_append, ih,
      String.utf8ByteSize_singleton]
    exact Nat.add_comm 1 n

private theorem size_replicate {n : Nat} (long : Engine.greatestSize < n) :
    Engine.greatestSize < Engine.size { content := String.ofList (List.replicate n 'x') } := by
  simp only [Engine.size, utf8ByteSize_replicate]
  exact Nat.lt_of_lt_of_le long (by omega)

private theorem first_left {second : Record} (big : Engine.greatestSize < Engine.size second) :
    let asked : Operation := .use 0 (.insertBatch [{ title := "a" }, second])
    unjournaled.answer? asked = some (.done (.error .tooBig)) ∧
      ((unjournaled.perform asked).storage.database 0).rows "documents" = .ok [⟨1, "a", "", "", "", none⟩] := by
  intro asked
  obtain ⟨c, opened, key, name, medium⟩ : ∃ c, unjournaled.connections[0]? = some c ∧ c.key = 0 ∧
      c.collection = "documents" ∧ c.unjournaled unjournaled.storage = some .memory :=
        ⟨_, rfl, rfl, rfl, rfl⟩
  have found : (unjournaled.storage.database 0).find? "documents" =
      some (.table ⟨"documents", .indexed (.empty "unicode61" .standard), []⟩) := by decide +kernel
  have first : Engine.refuses? ⟨"documents", .indexed (.empty "unicode61" .standard),
    []⟩ { title := "a" } = none := by
    decide +kernel
  have later : ∀ t, Engine.refuses? t second = some ⟨.tooBig, false⟩ := fun t => if_pos big
  have refused := Transacted.insertBatch_eq found (some .memory) [{ title := "a" }, second]
  simp only [Table.refusal?, Table.taken, first, later, Option.none_or, Option.some_or,
    Option.isSome_none, Option.isSome_some, if_true, Bool.false_eq_true, if_false] at refused
  have answered := answer?_insertBatch opened [{ title := "a" }, second]
  have left := database_insertBatch opened [{ title := "a" }, second] (key ▸ by decide)
  rw [key, name, medium, refused] at answered left
  refine ⟨answered, ?_⟩
  rw [left]
  decide +kernel

/-- Without a journal, a batch that is refused for its second record leaves the first one in memory.
And an ordinary table that skips records answers that it has taken them. -/
theorem batch_partly_taken :
    (let big : Record := { content := String.ofList (List.replicate 1000000001 'x') }
     let asked : Operation := .use 0 (.insertBatch [{ title := "a" }, big])
     unjournaled.answer? asked = some (.done (.error .tooBig)) ∧
       ((unjournaled.perform asked).storage.database 0).rows "documents" = .ok [⟨1, "a", "", "", "", none⟩]) ∧
    (let skipping : Engine := { Engine.standard with rowsAfter := fun t _ => t.rows }
     let c : Connection := ⟨0, .file, .ofString "notes.db", "notes", none, .unasked .delete⟩
     let s : Session := ⟨⟨⟨[], []⟩, [⟨false, [⟨"notes", .plain 3, []⟩]⟩], [0]⟩, [c], []⟩
     let asked : Operation := .use 0 (.insertBatch [{ title := "a" }])
     @answer? skipping s asked = some (.done (.ok ())) ∧
       ((@perform skipping s asked).storage.database 0).rows "notes" = .ok []) :=
  ⟨first_left (size_replicate (by decide)), rfl, by decide +kernel⟩

end Session

end TextArchive
