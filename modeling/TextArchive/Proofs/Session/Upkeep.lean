import TextArchive.Proofs.Ingest.BestEffort
import TextArchive.Proofs.Ingest.Completeness
import TextArchive.Proofs.Search.Matching
import TextArchive.Proofs.Session.AppendOnly
import TextArchive.Proofs.Store.Calls
import TextArchive.Proofs.Store.Names
import TextArchive.Proofs.Store.Ranked

/-!
Index maintenance does no harm. It is a best effort for every collection, and in a database that has
arisen from an empty one it sets the rank of its collection and leaves the rows and the matches of
all of them; doing it again changes nothing.
-/

set_option autoImplicit false
set_option relaxedAutoImplicit false

namespace TextArchive

open TextArchive.File (Path)
open TextArchive.Ingest
open TextArchive.Store (Database Engine Indexing Medium Named Row Table)

namespace Store.Database

/-- A database after maintenance of the index of one collection: it has a rank and has been made
anew from the rows. -/
def maintained (db : Database) (collection rank : String) : Database :=
  db.modify collection fun t => t.reindex fun i => (i.withRank rank).build t.rows

variable {db : Database} {collection rank : String}

private theorem maintained_eq (db : Database) (collection rank : String) :
    ((db.modify collection (Table.reindex (Indexing.withRank rank))).modify collection
      fun t => t.reindex (Indexing.build t.rows)).modify collection (Table.reindex Indexing.merge) =
      db.maintained collection rank := by
  rw [db.modify_reindex_reindex collection (fun _ => Indexing.withRank rank) fun rows => Indexing.build rows,
    db.modify_reindex_reindex collection
      (fun rows i => (i.withRank rank).build rows) fun _ => Indexing.merge]
  refine congrArg (db.modify collection)
    (funext fun t => congrArg (Table.reindex · t) (funext fun i => ?_))
  exact (i.withRank rank).merge_build t.rows

private theorem maintained_again (db : Database) (collection rank : String) :
    (db.maintained collection rank).maintained collection rank = db.maintained collection rank := by
  let change (rows : List Row) (i : Indexing) : Indexing := (i.withRank rank).build rows
  exact db.modify_reindex_reindex collection change change

private theorem Sound.maintained (sound : db.Sound) (collection rank : String) :
    Change collection db (db.maintained collection rank) ∧ (db.maintained collection rank).Sound :=
  sound.tend collection fun t i => (i.withRank rank).build t.rows

private theorem Arises.table_maintained (arises : db.Arises) (collection rank : String)
    {name : String} {t : Table} (found : db.find? name = some (.table t)) :
    ∃ i j, t = ⟨t.name, .indexed i, t.rows⟩ ∧ i.Agrees j ∧
      (db.maintained collection rank).find? name = some (.table ⟨t.name, .indexed j, t.rows⟩) ∧
      (Name.same collection name = true → j.rank = some rank) := by
  have sound := arises.sound
  obtain ⟨member, -⟩ := mem_of_find? found
  obtain ⟨i, kind⟩ := sound.indexed t member
  have covers := arises.inStep t member i kind
  have named : Name.same t.name collection = Name.same collection name := by
    rw [Name.same_comm t.name, Name.same_congr (same_of_find?_table found)]
  have after : (db.maintained collection rank).find? name = _ :=
    sound.find?_modify (sound.keeps_tended fun t i => (i.withRank rank).build t.rows) name
  obtain ⟨own, _, rows⟩ := t
  subst kind
  rw [after, found]
  by_cases concerned : Name.same own collection = true
  · refine ⟨i, (i.withRank rank).build rows, rfl, ⟨rfl, ?_⟩, ?_, fun _ => rfl⟩
    · rw [Indexing.entries_build]
      exact covers.symm
    · simp [Named.change, concerned, Table.reindex]
  · refine ⟨i, i, rfl, ⟨rfl, rfl⟩, by simp [Named.change, concerned], fun same => ?_⟩
    exact absurd (named.trans same) concerned

end Store.Database

namespace Ingest.Maintenance

section Stored

variable [Engine] {db : Database} {collection : String} {unjournaled : Option Medium}
    {weights : Weights}

private theorem run_stored (sound : db.Sound) (there : db.IsCollection collection)
    (finite : weights.allFinite = true) :
    (run weights (⟨db, collection, unjournaled⟩ : StoredCollection)).2 =
      (⟨MaintenanceStep.order, []⟩, ⟨db.maintained collection weights.expression, collection, unjournaled⟩) := by
  have stays : ∀ (db : Database) (step : MaintenanceStep), db.Sound ∧ db.IsCollection collection →
      (tendedBy weights collection db step).Sound ∧
        (tendedBy weights collection db step).IsCollection collection := by
    rintro db step ⟨sound, there⟩
    have tended := fun change => sound.tend collection change
    cases step with
    | setRank =>
      exact ⟨(tended fun _ => Indexing.withRank _).2,
        (tended fun _ => Indexing.withRank _).1.collections _ there⟩
    | rebuild =>
      exact ⟨(tended fun t => Indexing.build t.rows).2,
        (tended fun t => Indexing.build t.rows).1.collections _ there⟩
    | optimize =>
      exact ⟨(tended fun _ => Indexing.merge).2,
        (tended fun _ => Indexing.merge).1.collections _ there⟩
  have first := stays db .setRank ⟨sound, there⟩
  have second := stays _ .rebuild first
  have ranked := @take_stored _ ⟨db, collection, unjournaled⟩ weights .setRank there fun _ => finite
  have rebuilt := @take_stored _ ⟨tendedBy weights collection db .setRank, collection,
    unjournaled⟩ weights .rebuild
    first.2 nofun
  have optimized := @take_stored _ ⟨tendedBy weights collection
    (tendedBy weights collection db .setRank) .rebuild, collection,
    unjournaled⟩ weights .optimize second.2 nofun
  simp only [run, MaintenanceStep.order, takeAll, ranked, rebuilt, optimized]
  exact congrArg
    (fun database => ((⟨MaintenanceStep.order, []⟩, ⟨database, collection, unjournaled⟩) :
    MaintenanceReport × StoredCollection)) (db.maintained_eq collection weights.expression)

end Stored

/-- What index maintenance of one collection leaves of a database. All rows stay, every text matches
the rows that it matched before, and a search that has room for all rows shows the same hits,
perhaps in another order and with other scores. The rank is the expression of the weights, and other
collections are not concerned at all. -/
structure Tended (weights : Weights) (collection : String) (db after : Database) : Prop where
  beside : Database.Change collection db after
  rows : ∀ name, after.rows name = db.rows name
  matched : ∀ name text, Search.matched after name text = Search.matched db name text
  hits : ∀ name t, db.find? name = some (.table t) → ∀ text topK,
    t.rows.length ≤ min topK Search.greatestLimit →
    ∀ opened hits hits', (searchAfter opened db name text topK).1 = .ok hits →
      (searchAfter opened after name text topK).1 = .ok hits' →
      (hits'.map Hit.unscored).Perm (hits.map Hit.unscored)
  rank : after.rankConfig collection = .ok (some weights.expression)

theorem tended {db : Database} (arises : db.Arises) {collection : String}
    (there : db.IsCollection collection) (weights : Weights) :
    Tended weights collection db (db.maintained collection weights.expression) where
  beside := (arises.sound.maintained collection weights.expression).1
  rows := db.rows_tended collection fun t i => (i.withRank weights.expression).build t.rows
  matched name text := by
    have after : (db.maintained collection weights.expression).find? name = _ :=
      arises.sound.find?_modify (arises.sound.keeps_tended _) name
    cases found : db.find? name with
    | none => simp only [Search.matched, after, found, Option.map_none]
    | some named =>
      cases named with
      | auxiliary owner part =>
        simp only [Search.matched, after, found, Option.map_some, Named.change]
      | table t =>
        obtain ⟨i, j, same, agrees, found', -⟩ := arises.table_maintained collection
          weights.expression found
        rw [same] at found
        exact Search.matched_reranked agrees found found' text
  hits name t found text topK room opened hits hits' ok ok' := by
    obtain ⟨i, j, same, agrees, found', -⟩ :=
      arises.table_maintained collection weights.expression found
    rw [same] at found
    exact Search.reranked_searchAfter agrees found found' room ok ok'
  rank := by
    obtain ⟨t, _, found, -⟩ := there
    obtain ⟨i, j, -, -, found', ranked⟩ :=
      arises.table_maintained collection weights.expression found
    have own : Store.Database.Ranked collection (some weights.expression)
      (db.maintained collection weights.expression) :=
      ⟨(arises.sound.maintained collection weights.expression).2, _, j, found', rfl,
        ranked (Store.Name.same_refl _)⟩
    exact own.rankConfig

end Ingest.Maintenance

/-- Index maintenance asks any collection for each of its steps once, in order, and reports each
with the answer to it; an ingestion whose batches have been taken succeeds and counts them all the
same. The databases of a session arise from an empty one, unless a batch has been given up without a
journal, and in every database that does, maintenance of a collection with finite weights completes
all steps, leaves what the collections hold and what texts match, sets the rank, and done once more
with the same weights changes nothing at all. -/
theorem maintenance_harmless [Engine] (weights : Weights) :
    (∀ (σ : Type) [FullTextCollection σ] (c : σ), Maintenance.BestEffort weights c) ∧
    (∀ (σ : Type) [FullTextCollection σ] (options : Options) (build : Path → BuiltRecord) (source : List SourceItem)
      (c loaded : σ), let built := (firstFiles options.maxFiles source).map build
      let batches := cut options.batchSize [] (built.map (·.record))
      let done := Ingestion.ingest options build source c
      let tended := Maintenance.run options.weights loaded
      1 ≤ options.batchSize → options.batchSize ≤ BatchWriter.greatestBatch →
        insertEach c batches = (.ok (), loaded) →
        done.result =
          .ok ⟨built.length, built.length, batches.length,
            built.countP (·.readFailure.isSome), tended.2.1⟩ ∧
        done.state = tended.2.2) ∧
    (∀ s : Session, s.Reachable → ∀ key,
      AreWhole s.insertions key → (s.storage.database key).Arises) ∧
    (weights.allFinite = true → ∀ db : Database, db.Arises → ∀ collection,
      db.IsCollection collection →
      ∀ unjournaled : Option Medium, ∃ after, Maintenance.Tended weights collection db after ∧
        (Maintenance.run weights (⟨db, collection, unjournaled⟩ : StoredCollection)).2 =
          (⟨MaintenanceStep.order, []⟩, ⟨after, collection, unjournaled⟩) ∧
        (Maintenance.run weights (⟨after, collection, unjournaled⟩ : StoredCollection)).2 =
          (⟨MaintenanceStep.order, []⟩, ⟨after, collection, unjournaled⟩)) := by
  refine ⟨fun σ _ c => Maintenance.bestEffort weights c, ?_, ?_, ?_⟩
  · intro σ _ options build source c loaded built batches done tended positive fits taken
    exact ingest_of_taken positive fits build source taken
  · intro s reachable key whole
    exact (reachable.sound.keeps.holds key whole).arises
  · intro finite db arises collection there unjournaled
    have tended := Maintenance.tended arises there weights
    have again := @Maintenance.run_stored _ _ _ unjournaled _
      (arises.sound.maintained collection weights.expression).2
      (tended.beside.collections collection there) finite
    rw [Store.Database.maintained_again] at again
    exact ⟨_, tended, Maintenance.run_stored arises.sound there finite, again⟩

/-- A collection in memory that refuses to be built anew, and a collection of documents of which one
has been deleted. -/
theorem maintenance_harmless_to_documents :
    let memory := MemoryCollection.refusing [] ["rebuild"]
    let options : Options := { batchSize := 1 }
    let disk : File.Disk := ⟨[], []⟩
    let row (n : Nat) (title : String) (deletedAt : Option String) : Row :=
      ⟨n, title, title ++ ".txt", "", "", deletedAt⟩
    let rows : List Row := [row 1 "a" none, row 2 "b" (some "2024-05-01")]
    let t : Table := ⟨"documents", .indexed ⟨"unicode61", .standard, none,
      [rows.map (.ofRow .standard)], []⟩, rows⟩
    let db : Database := ⟨false, [t]⟩
    (Maintenance.run .standard memory).2.1.completed = [.setRank, .optimize] ∧
    (∃ maintenance,
      (Ingestion.ingest options ((Ingestion.builder options).build disk) [.file ⟨[97]⟩] memory).result =
      .ok ⟨1, 1, 1, 1, maintenance⟩) ∧
    ((Session.start disk).storage.database 0).Arises ∧
    Weights.standard.allFinite = true ∧ db.Arises ∧ db.IsCollection "documents" ∧
    ∃ after, after.rows "documents" = .ok t.rows ∧
      Search.matched after "documents" "\n" = .ok t.rows ∧
      after.rankConfig "documents" = .ok (some Weights.standard.expression) ∧
      (Maintenance.run .standard (⟨after, "documents", none⟩ : StoredCollection)).2.2 = ⟨after,
        "documents", none⟩ := by
  intro memory options disk row rows t db
  obtain ⟨effort, ingested, sessions, stored⟩ := maintenance_harmless .standard
  have finite : Weights.standard.allFinite = true := by decide +kernel
  let record (title : String) : Record := ⟨title, title ++ ".txt", "", "", none⟩
  let empty : Database := ⟨false, [⟨"documents", .indexed (.empty "unicode61" .standard), []⟩]⟩
  have created : Database.empty.createCollection "documents" "unicode61" = .ok empty :=
    (Database.createCollection_standard rfl "documents").1 (by decide +kernel)
  let added := (empty.modify "documents" (·.add (record "a"))).modify "documents"
    (·.add (record "b"))
  have deleted : (added.reindex Indexing.flush).softDelete "documents" "b" (some "2024-05-01") = .ok
    (1, db) := by
    decide +kernel
  have arises : db.Arises :=
    .softDelete (.flush (.add (.add (.createCollection .empty created) _ _) _ _)) deleted
  have there : db.IsCollection "documents" := by decide +kernel
  obtain ⟨after, tended, -, again⟩ := stored finite db arises "documents" there none
  refine ⟨?_, ?_, sessions _ (.start disk rfl) 0 (by decide), finite, arises, there, after, ?_, ?_,
    tended.rank, congrArg Prod.snd again⟩
  · exact (effort _ memory).completed
  · have missing : (disk.read ⟨[97]⟩).isOk = false := by cbv
    have unreadable : ((Ingestion.builder options).build disk ⟨[97]⟩).readFailure.isSome
      = true := by
      rw [isSome_readFailure_build, missing]
      rfl
    obtain ⟨result, -⟩ :=
      ingested _ options ((Ingestion.builder options).build disk) [.file ⟨[97]⟩] memory _
        (by decide) (by decide) rfl
    have counted : [(Ingestion.builder options).build disk ⟨[97]⟩].countP
      (·.readFailure.isSome) = 1 := by
      simp only [List.countP_cons, List.countP_nil, unreadable]
      rfl
    simp only [firstFiles, options, List.filterMap_cons, List.filterMap_nil, SourceItem.file?,
      List.map_cons, List.map_nil, counted] at result
    exact ⟨_, result⟩
  · exact (tended.rows "documents").trans (by decide +kernel)
  · exact (tended.matched "documents" "\n").trans (by decide +kernel)

/-- A weight that is no number cannot be a rank, and maintenance brings a row to light that has been
left behind by a batch which was given up without a journal. -/
theorem maintenance_seen :
    let db : Database := ⟨false, [⟨"documents", .indexed (.empty "unicode61" .standard), []⟩]⟩
    let weights : Weights := ⟨0.0 / 0.0, 1.0, 1.0, 1.0⟩
    let done := Maintenance.run weights (⟨db, "documents", none⟩ : StoredCollection)
    let refusing : Engine :=
      { Engine.standard with refuses? := fun _ r => if r.title = "b" then some ⟨.tooBig,
        false⟩ else none }
    let left := (@Store.Transacted.insertBatch refusing (.settled db (some .memory)) "documents"
      [{ title := "a" }, { title := "b" }]).2.committed
    let later := (Maintenance.run .standard (⟨left, "documents",
      some .memory⟩ : StoredCollection)).2.2.database
    done.2.1.completed = [.rebuild, .optimize] ∧
      done.2.2.database.rankConfig "documents" = .ok none ∧
      Search.matched left "documents" "a" = .ok [] ∧
      Search.matched later "documents" "a" = .ok [⟨1, "a", "", "", "", none⟩] := by
  decide +kernel

end TextArchive
