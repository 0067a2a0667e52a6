import TextArchive.Proofs.Session.Batches
import TextArchive.Proofs.Session.Invariant

/-!
Ranks over a session. A collection takes every rank that finite weights state, and what is then told
as its rank is just that expression, whatever is added, built anew, opened or closed, until an
operation is answered to the effect that another rank has been set for the collection.
-/

set_option autoImplicit false
set_option relaxedAutoImplicit false

namespace TextArchive

open TextArchive.File (Path)
open TextArchive.Ingest
open TextArchive.Number (PlainDecimal)
open TextArchive.Store

namespace Ingest

open Store.Database (Ranked keptUnranked_ranked)

section Stored

variable [Engine] (c : StoredCollection) (weights : Weights) {name : String} {rank : Option String}

private theorem Maintenance.completed_setRank :
    (Maintenance.run weights c).2.1.completed.contains .setRank =
    (FullTextCollection.setRank c weights).1.isOk := by
  rw [(Maintenance.bestEffort weights c).completed]
  show _ = (Maintenance.answer weights c .setRank).isOk
  cases ranked : (Maintenance.answer weights c .setRank).isOk <;>
    cases rebuilt : (Maintenance.answer weights c .rebuild).isOk <;>
    cases optimized : (Maintenance.answer weights c .optimize).isOk <;>
    simp [MaintenanceStep.order, ranked, rebuilt, optimized]

private theorem ranked_setRank (ranked : Ranked name rank c.database) :
    Ranked name (if (FullTextCollection.setRank c weights).1.isOk && Name.same c.name name then
      some weights.expression else rank) (FullTextCollection.setRank c weights).2.database := by
  show Ranked name
    (if (c.after (c.database.setRank c.name weights.expression)).1.isOk && _ then _ else _)
    (c.after (c.database.setRank c.name weights.expression)).2.database
  cases set : c.database.setRank c.name weights.expression with
  | error e => exact ranked
  | ok db => exact ranked.setRank set

variable {c}

private theorem ranked_rebuild (ranked : Ranked name rank c.database) :
    Ranked name rank (FullTextCollection.rebuild c).2.database :=
  Database.Kept.of_changed ranked fun _ built => (keptUnranked_ranked name rank).rebuild ranked built

private theorem ranked_optimize (ranked : Ranked name rank c.database) :
    Ranked name rank (FullTextCollection.optimize c).2.database :=
  Database.Kept.of_changed ranked fun _ made => (keptUnranked_ranked name rank).optimize ranked made

private theorem ranked_maintain (ranked : Ranked name rank c.database) :
    Ranked name
    (if (Maintenance.run weights c).2.1.completed.contains .setRank && Name.same c.name name then
      some weights.expression else rank) (Maintenance.run weights c).2.2.database := by
  rw [Maintenance.completed_setRank]
  exact ranked_optimize (ranked_rebuild (ranked_setRank c weights ranked))

end Stored

end Ingest

/-- Weights that the collection of a name in the database of a key has been given as its rank. -/
structure Ranking where
  key : Nat
  collection : String
  weights : Weights

def Ranking.concerns (r : Ranking) (key : Nat) (name : String) : Bool :=
  r.key = key && Name.same r.collection name

/-- The rank that a collection is left with by those that have been set, if it had the given one
before. -/
def leftRank (key : Nat) (name : String) (before : Option String) (set : List Ranking) :
    Option String :=
  (((set.filter (·.concerns key name)).getLast?).map (·.weights.expression)).or before

private theorem leftRank_append (key : Nat) (name : String) (before : Option String)
    (set more : List Ranking) :
    leftRank key name before (set ++ more) = leftRank key name
    (leftRank key name before set) more := by
  simp only [leftRank, List.filter_append, List.getLast?_append, Option.map_or, Option.or_assoc]

/-- Whether an answer says that a rank has been set: by itself, or in the course of maintenance. -/
def Answer.ranks : Answer → Bool
  | .done result => result.isOk
  | .maintained _ report => report.completed.contains .setRank
  | .ran _ (.ok report) => report.maintenance.completed.contains .setRank
  | _ => false

namespace Session

private theorem toList_ite {α : Type} (b : Bool) (x : α) :
    (if b then some x else none).toList = if b then [x] else [] := by
  cases b <;> rfl

section

variable [Engine]

/-- The weights that an operation is to set as a rank. -/
def weights? : Operation → Option Weights
  | .use _ (.setRank weights) => some weights
  | .use _ (.maintain weights) => some weights
  | .use _ (.ingest options _) => some options.weights
  | .run options _ _ _ => some options.weights
  | _ => none

/-- The connection through which an operation changes its collection. -/
def through? (s : Session) : Operation → Option Connection
  | .use n _ => s.connections[n]?
  | .run _ _ path config => (s.storage.connect path config).result.toOption
  | _ => none

/-- The rank that an operation sets, if its answer says so. -/
def ranking? (s : Session) (operation : Operation) : Option Ranking :=
  if (s.answer? operation).any Answer.ranks then
    (s.through? operation).bind fun c => (weights? operation).map (⟨c.key, c.collection, ·⟩)
  else none

/-- The ranks that operations set, first one first. -/
def rankings (s : Session) : List Operation → List Ranking
  | [] => []
  | operation :: operations => (s.ranking? operation).toList ++ (s.perform operation).rankings operations

section Step

variable {key : Nat} {name : String} {rank : Option String}

omit [Engine] in
private theorem ranked_keep {s : Storage} {c : Connection} (known : c.key < s.databases.length)
    (before : Database.Ranked name rank (s.database key)) {done : StoredCollection} {set : Bool}
    {weights : Weights}
    (here : Database.Ranked name rank (c.stored s).database →
      Database.Ranked name
      (if set && Name.same c.collection name then some weights.expression else rank)
        done.database) :
    Database.Ranked name
    (leftRank key name rank (if set then [⟨c.key, c.collection, weights⟩] else []))
      ((c.keep s done).database key) := by
  rw [Connection.keep, Storage.database_setDatabase]
  by_cases same : c.key = key
  · subst same
    have after := here before
    cases set <;> cases concerned : Name.same c.collection name <;>
      simpa [leftRank, Ranking.concerns, known, concerned] using after
  · cases set <;> simpa [leftRank, Ranking.concerns, same] using before

private theorem ranked_ingestConnected (options : Options) (source : File.Disk → List SourceItem)
    (events : List Event) {s : Storage} {c : Connection} (known : c.key < s.databases.length)
    (before : Database.Ranked name rank (s.database key)) :
    let done := Ingestion.ingestConnected options source s c
    Database.Ranked name
      (leftRank key name rank
        (if (Answer.ran events done.result).ranks then [⟨c.key, c.collection,
          options.weights⟩] else []))
      (done.state.database key) := by
  refine ranked_keep known before fun here => ?_
  let holds (sc : StoredCollection) : Prop := sc.name = c.collection ∧
    Database.Ranked name rank sc.database
  have insert : ∀ sc records, holds sc → holds (FullTextCollection.insertBatch sc records).2 :=
    fun _ records taken =>
      ⟨taken.1, (Database.keptUnranked_ranked name rank).insertBatch taken.2 _ _ records⟩
  show Database.Ranked name
    (if (Answer.ran _ (Ingestion.ingest options _ (source s.shown) (c.stored s)).result).ranks
    && _ then _ else _) (Ingestion.ingest options _ (source s.shown) (c.stored s)).state.database
  rcases ingest_cases options insert (c := c.stored s) ⟨rfl,
    here⟩ ((Ingestion.builder options).build s.shown)
      (source s.shown) with ⟨e, result, _, ranked⟩ | ⟨loaded, report, ⟨own, ranked⟩, result,
        maintained, state⟩
  · simpa [result, Answer.ranks] using ranked
  · rw [result, state]
    simp only [Answer.ranks, maintained, ← own]
    exact ranked_maintain options.weights ranked

private theorem ranked_run (options : Options) (root path : Path) (config : Config) {s : Session}
    (sound : s.Sound) (before : Database.Ranked name rank (s.storage.database key)) :
    Database.Ranked name
    (leftRank key name rank (s.ranking? (.run options root path config)).toList)
      ((s.perform (.run options root path config)).storage.database key) := by
  have kept := (Database.keptUnranked_ranked name rank).connect before path config
  have connects := sound.keeps.connect path config
  show Database.Ranked name (leftRank key name rank
    (if (some (Answer.ran _ (Ingestion.run options root path config s.storage).result)).any Answer.ranks then
      ((s.storage.connect path config).result.toOption).bind _ else none).toList)
    ((Ingestion.run options root path config s.storage).state.database key)
  unfold Ingestion.run
  split
  · exact before
  split
  · exact before
  rename_i folder _
  generalize s.storage.connect path config = made at kept connects
  obtain ⟨events, s', result⟩ := made
  cases result with
  | error e => exact kept
  | ok c =>
    have ranked := ranked_ingestConnected options folder.items
      (events ++ (Ingestion.ingestConnected options folder.items s' c).events)
        (connects.known c rfl) kept
    show Database.Ranked name (leftRank key name rank
      (if (Answer.ran _ (Ingestion.ingestConnected options folder.items s' c).result).ranks then
        some ⟨c.key, c.collection, options.weights⟩ else none).toList) _
    rw [toList_ite]
    exact ranked

private theorem ranked_perform {s : Session} (sound : s.Sound)
    (before : Database.Ranked name rank (s.storage.database key)) (operation : Operation) :
    Database.Ranked name (leftRank key name rank (s.ranking? operation).toList)
      ((s.perform operation).storage.database key) := by
  cases operation with
  | connect path config =>
    have none : s.ranking? (.connect path config) = none := by simp [ranking?, through?]
    rw [none]
    exact (Database.keptUnranked_ranked name rank).connect before path config
  | connectExisting path collection =>
    have none : s.ranking? (.connectExisting path collection) = none := by simp [ranking?, through?]
    rw [none]
    exact Database.Kept.of_connectExisting before path collection
  | run options root path config => exact ranked_run options root path config sound before
  | use n use =>
    cases opened : s.connections[n]? with
    | none =>
      have none : s.ranking? (.use n use) = none := by simp [ranking?, through?, opened]
      rw [none]
      simp only [Session.perform, opened, Option.elim_none]
      exact before
    | some c =>
      have known := sound.known c (List.mem_of_getElem? opened)
      have set : (s.ranking? (.use n use)).toList = if (answerUse s.storage c use).ranks then
          ((weights? (.use n use)).map (Ranking.mk c.key c.collection)).toList else [] := by
        simp only [ranking?, answer?, through?, opened, Option.map_some, Option.any_some, Option.bind_some]
        split <;> rfl
      have still : ∀ {done : StoredCollection},
        (Database.Ranked name rank (c.stored s.storage).database →
          Database.Ranked name rank done.database) →
          Database.Ranked name rank ((c.keep s.storage done).database key) := fun here =>
        Database.Kept.of_setDatabase before fun same =>
          here (by rw [Connection.stored, same]; exact before)
      simp only [Session.perform, opened, Option.elim_some, set]
      cases use <;> simp only [weights?, Option.map_none, Option.map_some, Option.toList_none,
        Option.toList_some, ite_self]
      case insertBatch records =>
        exact still fun here => (Database.keptUnranked_ranked name rank).insertBatch here _ _ records
      case setRank weights => exact ranked_keep known before (ranked_setRank (c.stored s.storage) weights)
      case rebuild =>
        exact still ranked_rebuild
      case optimize =>
        exact still ranked_optimize
      case maintain weights =>
        exact ranked_keep known before (ranked_maintain weights)
      case ingest options source => exact ranked_ingestConnected options source _ known before
      case search text topK => exact before
      case count => exact before
      case close => exact before

/-- After operations a collection has the last rank that they have set for it, or the one it had. -/
theorem ranked_performAll {s : Session} (sound : s.Sound)
    (before : Database.Ranked name rank (s.storage.database key)) (operations : List Operation) :
    Database.Ranked name (leftRank key name rank (s.rankings operations))
      ((operations.foldl perform s).storage.database key) := by
  induction operations generalizing s rank with
  | nil => exact before
  | cons operation operations ih =>
    rw [rankings, leftRank_append]
    exact ih (sound.perform operation).1 (ranked_perform sound before operation)

end Step

/-- Finite weights are stated as plain decimals, one for each column in order, which is what the
index reads. A collection takes them as its rank, and is told to have just that rank after whatever
operations follow, unless one of them says that it has set another, and then it is the last of
these. -/
theorem rank_stands {s : Session} (reachable : s.Reachable) {n : Nat} {c : Connection}
    (opened : s.connections[n]? = some c)
    (there : (s.storage.database c.key).IsCollection c.collection) {w : Weights}
    (finite : w.allFinite = true) :
    let s' := s.perform (.use n (.setRank w))
    (∃ title sourcePath content tag, Index.RankExpression.States w title sourcePath content tag) ∧
    s.answer? (.use n (.setRank w)) = some (.done (.ok ())) ∧
    ∀ (later : List Operation) (name : String), Name.same c.collection name = true →
      ((later.foldl perform s').storage.database c.key).rankConfig name =
        .ok (leftRank c.key name (some w.expression) (s'.rankings later)) := by
  intro s'
  have sound := reachable.sound
  have set : (FullTextCollection.setRank (c.stored s.storage) w).1 = .ok () := by
    show (StoredCollection.after _ ((s.storage.database c.key).setRank c.collection w.expression)).1 = _
    rw [there.setRank_of_finite finite]
    rfl
  have answered : s.answer? (.use n (.setRank w)) = some (.done (.ok ())) := by
    simp only [answer?, opened, Option.map_some, answerUse, set]
  refine ⟨Index.RankExpression.exists_states finite, answered, fun later name same => ?_⟩
  have named : (s.storage.database c.key).IsCollection name := by
    obtain ⟨t, indexing, found, kind⟩ := there
    exact ⟨t, indexing, (Database.find?_congr same _).symm.trans found, kind⟩
  obtain ⟨rank, before⟩ := (sound.keeps.sound c.key).ranked named
  have here := ranked_perform sound before (.use n (.setRank w))
  have ranking : s.ranking? (.use n (.setRank w)) = some ⟨c.key, c.collection, w⟩ := by
    simp [ranking?, answered, Answer.ranks, through?, opened, weights?, Except.isOk, Except.toBool]
  have given : leftRank c.key name rank (s.ranking? (.use n (.setRank w))).toList = some
    w.expression := by
    simp [ranking, leftRank, Ranking.concerns, same]
  rw [given] at here
  exact (ranked_performAll (sound.perform _).1 here later).rankConfig

end

/-- A zero with a minus, a large whole number, a small one and a negative one. Records are added,
the index is built anew and optimized, a collection of the same name in another database is given
another rank, and the connection is closed. -/
theorem rank_stands_across_operations :
    let w : Weights := ⟨-0.0, 1e22, 5e-4, -2.5⟩
    let s := [Operation.connect Storage.memoryPath {}].foldl perform (start ⟨[], []⟩)
    let c : Connection := ⟨0, .memory, Storage.memoryPath, "documents", some .memory,
      .asked .memory {}⟩
    let later : List Operation := [.use 0 (.insertBatch [{ title := "a" }]), .use 0 .rebuild, .use 0 .optimize,
      .connect Storage.memoryPath {}, .use 1 (.setRank .standard), .use 0 .close]
    let s' := s.perform (.use 0 (.setRank w))
    s.Reachable ∧ s.connections[0]? = some c ∧ (s.storage.database 0).IsCollection "documents" ∧
      w.allFinite = true ∧
      s.answer? (.use 0 (.setRank w)) = some (.done (.ok ())) ∧
      ((later.foldl perform s').storage.database 0).rankConfig "Documents" =
        .ok (some "bm25(-0.0, 10000000000000000000000.0, 0.0005, -2.5)") := by
  intro w s c later s'
  have reachable : s.Reachable := (Reachable.start ⟨[], []⟩ rfl).performAll _
  have opened : s.connections[0]? = some c := by decide +kernel
  have there : (s.storage.database 0).IsCollection "documents" := by decide +kernel
  have finite : w.allFinite = true := by decide +kernel
  obtain ⟨-, answered, stands⟩ := rank_stands reachable opened there finite
  refine ⟨reachable, opened, there, finite, answered, ?_⟩
  have told := stands later "Documents" (by decide +kernel)
  have left : leftRank 0 "Documents" (some w.expression) (s'.rankings later) =
      some "bm25(-0.0, 10000000000000000000000.0, 0.0005, -2.5)" := by decide +kernel
  rw [← left]
  exact told

end Session

end TextArchive
