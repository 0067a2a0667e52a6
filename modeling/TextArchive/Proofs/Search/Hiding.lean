import TextArchive.Ingest.Maintenance
import TextArchive.Proofs.Search.Cursors
import TextArchive.Proofs.Search.Hits
import TextArchive.Proofs.Store.Arising

/-!
What deletion times do to searches. They hide rows and do nothing else: the statistics count all
rows, so that hits which stay keep their scores, their excerpts and their order.
-/

set_option autoImplicit false
set_option relaxedAutoImplicit false

namespace TextArchive

open TextArchive.Ingest (MaintenanceStep StoredCollection)
open TextArchive.Query (Expr)
open TextArchive.Store (Database Indexing Medium Row StoreError Table)

private theorem mapM_filter {α β ε : Type} {f : α → Except ε β} {p : α → Bool} {q : β → Bool}
    {l : List α} {found : List β} (ok : l.mapM f = .ok found)
    (same : ∀ a b, f a = .ok b → q b = p a) :
    (l.filter p).mapM f = .ok (found.filter q) := by
  have each := mapM_ok_iff.mp ok
  refine mapM_ok_iff.mpr ?_
  clear ok
  induction each with
  | nil => exact .nil
  | @cons a b l found first _ rest =>
    have decided := same a b first
    cases kept : p a with
    | false =>
      rw [List.filter_cons_of_neg (by simp [kept]),
        List.filter_cons_of_neg (by simp [decided, kept])]
      exact rest
    | true =>
      rw [List.filter_cons_of_pos kept, List.filter_cons_of_pos (by simp [decided, kept])]
      exact .cons first rest

namespace Search

def Ranked.mapRow (r : Ranked) (f : Row → Row) : Ranked :=
  { r with row := f r.row }

section Marking

variable {f : Row → Row} (marking : Row.Marking f)
include marking

theorem listed_marking (r : Row) : listed (f r) = listed r := by
  rw [marking r]
  rfl

section Ranked

variable {indexing : Indexing} {weights : List Float} {e : Expr} {rows : List Row}

private theorem ranked_marking : ranked indexing weights e
    (rows.map f) = (ranked indexing weights e rows).map (·.mapRow f) := by
  simp only [ranked, List.filterMap_map, List.map_filterMap]
  refine List.filterMap_congr fun r _ => ?_
  have number : (f r).rowid = r.rowid := by rw [marking r]
  rw [Function.comp_apply, number, Option.map_map]
  rfl

private theorem hit_marking (r : Ranked) : hit indexing.tokenizer e
    (r.mapRow f) = hit indexing.tokenizer e r := by
  have marked : r.mapRow f = { r with row := { r.row with deletedAt := (f r.row).deletedAt } } :=
    congrArg (Ranked.mk · r.positions r.score) (marking r.row)
  rw [marked]
  rfl

private theorem bestFirst_marking (keep : Row → Bool)
    (live : ∀ r ∈ rows, (f r).isLive = (r.isLive && keep r)) :
    bestFirst indexing weights e (rows.map f) =
      ((bestFirst indexing weights e rows).filter fun r => keep r.row).map (·.mapRow f) := by
  have sorted : ((ranked indexing weights e rows).mergeSort Ranked.le).map (·.mapRow f) =
      ((ranked indexing weights e rows).map (·.mapRow f)).mergeSort Ranked.le :=
    List.map_mergeSort fun _ _ _ _ => rfl
  rw [bestFirst, ranked_marking marking, ← sorted, bestFirst, List.filter_map, List.filter_filter]
  congr 1
  refine List.filter_congr fun r member => ?_
  have here := (mem_ranked (List.mem_mergeSort.mp member)).1
  rw [Function.comp_apply, show (r.mapRow f).row = f r.row from rfl, live r.row here, Bool.and_comm]

private theorem best_marking (keep : String → Bool)
    (live : ∀ r ∈ rows, (f r).isLive = (r.isLive && keep r.title)) {limit : Nat}
    (all : rows.length ≤ limit) {hits : List Hit}
    (ok : best indexing weights e rows limit = .ok hits) :
    best indexing weights e (rows.map f) limit = .ok (hits.filter fun h => keep h.title) := by
  have short : ∀ rows' : List Row, rows'.length ≤ limit →
      (bestFirst indexing weights e rows').take limit = bestFirst indexing weights e rows' :=
    fun rows' few => List.take_of_length_le (length_bestFirst_le.trans few)
  change ((bestFirst indexing weights e rows).take limit).mapM (hit indexing.tokenizer e) = _ at ok
  show ((bestFirst indexing weights e (rows.map f)).take limit).mapM (hit indexing.tokenizer e) = _
  rw [short _ all] at ok
  rw [short _ (by rwa [List.length_map]),
    bestFirst_marking marking (fun r => keep r.title) live, List.mapM_map]
  have same_hits : (fun r => hit indexing.tokenizer e (r.mapRow f)) = hit indexing.tokenizer e :=
    funext (hit_marking marking)
  rw [show hit indexing.tokenizer e ∘ (·.mapRow f) = hit indexing.tokenizer e from same_hits]
  refine mapM_filter ok fun r h found => ?_
  rw [(number_of_hit found).2]

end Ranked

section Collection

variable {db db' : Database} {collection : String} {t : Table} {indexing : Indexing}
  (found : db.find? collection = some (.table t)) (kind : t.kind = .indexed indexing)
  (found' : db'.find? collection = some (.table (t.mapRows f))) (keep : String → Bool)
  (live : ∀ r ∈ t.rows, (f r).isLive = (r.isLive && keep r.title)) {limit : Nat} {hits : List Hit}
include found found' live

private theorem listCollection_marking (all : t.rows.length ≤ limit)
    (ok : listCollection db collection limit = .ok hits) :
    listCollection db' collection limit = .ok (hits.filter fun h => keep h.title) := by
  simp only [listCollection, found, found', listing, Store.Table.mapRows] at ok ⊢
  cases ok
  have few : (t.rows.filter Row.isLive).length ≤ limit := (List.length_filter_le _ _).trans all
  have few' : ((t.rows.map f).filter Row.isLive).length ≤ limit :=
    (List.length_filter_le _ _).trans (by rwa [List.length_map])
  rw [List.take_of_length_le few, List.take_of_length_le few', List.filter_map,
    List.map_map, List.filter_map, List.filter_filter]
  have shown : (t.rows.filter (Row.isLive ∘ f)) = t.rows.filter fun r => keep r.title && r.isLive :=
    List.filter_congr fun r member => by rw [Function.comp_apply, live r member, Bool.and_comm]
  rw [shown]
  exact congrArg Except.ok (List.map_congr_left fun r _ => listed_marking marking r)

include kind

omit marking in
private theorem searchTime_marking (ok : searchTime db collection = .ok hits) :
    searchTime db' collection = .ok (hits.filter fun h => keep h.title) := by
  obtain ⟨name, _, rows⟩ := t
  obtain rfl := kind
  simp only [searchTime, found, found', Store.Table.mapRows] at ok ⊢
  split at ok
  · cases ok
  rename_i dead
  cases ok
  have still : (rows.map f).any Row.isLive = false := by
    simp only [List.any_map, List.any_eq_false, Function.comp_apply]
    intro r member
    have none_live : r.isLive = false := by
      simpa using fun h => dead (List.any_eq_true.mpr ⟨r, member, h⟩)
    simp [live r member, none_live]
  rw [still]
  rfl

private theorem rankCollection_marking {text : List Char} (all : t.rows.length ≤ limit)
    (ok : rankCollection db collection text limit = .ok hits) :
    rankCollection db' collection text limit = .ok (hits.filter fun h => keep h.title) := by
  unfold rankCollection at ok ⊢
  split at ok
  · cases ok
  rename_i plain
  rw [if_neg plain]
  split at ok
  · rename_i time
    rw [if_pos time]
    exact searchTime_marking found kind found' keep live ok
  · rename_i other
    rw [if_neg other]
    obtain ⟨name, _, rows⟩ := t
    obtain rfl := kind
    simp only [found, found', Store.Table.mapRows] at ok ⊢
    cases read : expression indexing.tokenizer text with
    | error e => simp [read] at ok
    | ok e =>
      simp only [read] at ok ⊢
      exact best_marking marking keep live all ok

private theorem finder_marking {text : String} (all : t.rows.length ≤ limit)
    (ok : finder db collection text limit = .ok hits) :
    finder db' collection text limit = .ok (hits.filter fun h => keep h.title) := by
  unfold finder at ok ⊢
  split at ok
  · rename_i blank
    rw [if_pos blank]
    exact listCollection_marking marking found found' keep live all ok
  · rename_i words
    rw [if_neg words]
    exact rankCollection_marking marking found kind found' keep live all ok

end Collection

end Marking

end Search

private theorem merged_takeAll [Store.Engine] (weights : Weights) {steps : List MaintenanceStep}
    (steady : .setRank ∉ steps) {s : StoredCollection}
    (inStep : s.database.Everywhere Table.InStep) :
    let after := (Ingest.Maintenance.takeAll weights steps s).2.database
    after.merged = s.database.merged ∧ after.Everywhere Table.InStep := by
  induction steps generalizing s with
  | nil => exact ⟨rfl, inStep⟩
  | cons step steps ih =>
    have first : (Ingest.Maintenance.take weights s step).2.database.merged = s.database.merged ∧
        (Ingest.Maintenance.take weights s step).2.database.Everywhere Table.InStep := by
      have after : ∀ result : Except StoreError Database,
          (∀ db, result = .ok db → db.merged = s.database.merged ∧ db.Everywhere Table.InStep) →
          (s.after result).2.database.merged = s.database.merged ∧
            (s.after result).2.database.Everywhere Table.InStep := by
        intro result taken
        cases result with
        | error e => exact ⟨rfl, inStep⟩
        | ok db => exact taken db rfl
      cases step with
      | setRank => exact absurd List.mem_cons_self steady
      | rebuild => exact after _ fun db built => Database.eq_of_rebuild built ▸
        Database.merged_rebuilt inStep _
      | optimize => exact after _ fun db made => Database.eq_of_optimize made ▸
        Database.merged_optimized inStep _
    obtain ⟨same, stays⟩ := first
    obtain ⟨others, all⟩ := ih (fun member => steady (List.mem_cons_of_mem _ member)) stays
    exact ⟨others.trans same, all⟩

/-- Setting a deletion time for a title takes the hits of that title out of the answer to a search
for all rows and leaves the others as they are, in their order. Taking the time away again from rows
that had none before, at least from those of the title, restores the answer. Building the index anew
and optimizing it in between makes no difference. The indexes must say what the rows hold, and the
collection must not be one that hides the numbers of its rows. -/
theorem softDelete_hides [Store.Engine] {db : Database} {collection : String} {t : Table}
    {indexing : Indexing} (found : db.find? collection = some (.table t))
    (kind : t.kind = .indexed indexing) (inStep : db.Everywhere Table.InStep)
    (bounded : t.rows.length < 2 ^ 63) (numbered : Search.hidesNumbers collection = false)
    {text : String} {topK opened : Nat} {hits : List Hit} (all : t.rows.length ≤ topK)
    (ok : (searchAfter opened db collection text topK).1 = .ok hits) (title time : String)
    {weights : Weights} {steps : List MaintenanceStep} (steady : .setRank ∉ steps)
    (unjournaled : Option Medium) (later : Nat) :
    let tended (db : Database) :=
      (Ingest.Maintenance.takeAll weights steps (⟨db, collection,
        unjournaled⟩ : StoredCollection)).2.database
    ∃ n hidden, db.softDelete collection title (some time) = .ok (n, hidden) ∧
      (searchAfter later (tended hidden) collection text topK).1 = .ok
        (hits.filter (·.title ≠ title)) ∧
      ∀ restored : Nat → Bool, (∀ r ∈ t.rows, restored r.rowid = true → r.deletedAt = none) →
        (∀ r ∈ t.rows, r.deletedAt = none → r.title = title → restored r.rowid = true) →
        let again := (tended hidden).modify collection
          (·.mapRows (Row.setDeleted (restored ·.rowid) none))
        (searchAfter later (tended again) collection text topK).1 = .ok hits := by
  intro tended
  have steadily : ∀ db : Database, db.Everywhere Table.InStep →
      (tended db).merged = db.merged ∧ (tended db).Everywhere Table.InStep :=
    fun db step => merged_takeAll weights steady (s := ⟨db, collection, unjournaled⟩) step
  have alike : ∀ {db db' : Database}, db.merged = db'.merged →
      searchAfter later db collection text topK = searchAfter later db' collection text topK := by
    intro db db' same
    rw [← db.searchAfter_merged, same, db'.searchAfter_merged]
  rw [searchAfter_eq numbered] at ok
  obtain ⟨positive, ok⟩ := Search.answer_ok_iff.mp ok
  have whole : t.rows.length ≤ min topK Search.greatestLimit := by
    unfold Search.greatestLimit
    omega
  let hide := Row.setDeleted (fun r => r.title = title) (some time)
  have marks : Row.Marking hide := Row.marking_setDeleted _ _
  let hidden := db.modify collection (·.mapRows hide)
  have deleted : db.softDelete collection title (some time) =
      .ok ((t.rows.filter (·.title = title)).length, hidden) := by
    rw [Database.softDelete, found]
    simp only [hidden, hide, funext (Database.markDeleted_eq title (some time))]
  have found_hidden : hidden.find? collection = some (.table (t.mapRows hide)) :=
    Database.find?_mapRows found hide
  obtain ⟨same_hidden, tended_step⟩ := steadily hidden
    (Database.Everywhere.mapRows inStep collection marks)
  have live : ∀ r, (hide r).isLive = (r.isLive && decide (r.title ≠ title)) := by
    simp [hide]
  refine ⟨_, hidden, deleted, ?_, fun restored had covers => ?_⟩
  · rw [alike same_hidden, searchAfter_eq numbered]
    exact Search.answer_ok_iff.mpr ⟨positive,
      Search.finder_marking marks found kind found_hidden (fun shown => decide (shown ≠ title))
        (fun r _ => live r) whole ok⟩
  · let restore := Row.setDeleted (restored ·.rowid) none
    have marks_again : Row.Marking restore := Row.marking_setDeleted _ _
    have restoring : Row.Marking (restore ∘ hide) := marks_again.comp marks
    intro again
    obtain ⟨same_again, -⟩ :=
      steadily again (Database.Everywhere.mapRows tended_step collection marks_again)
    have same : again.merged = (hidden.modify collection (·.mapRows restore)).merged := by
      rw [Database.merged_mapRows, Database.merged_mapRows, same_hidden]
    rw [alike (same_again.trans same), searchAfter_eq numbered]
    have after := Database.find?_mapRows found_hidden restore
    have both : (t.mapRows hide).mapRows restore = t.mapRows (restore ∘ hide) := by
      simp [Table.mapRows]
    rw [both] at after
    have back : ∀ r ∈ t.rows, ((restore ∘ hide) r).isLive = (r.isLive && true) := by
      intro r member
      rw [Bool.and_true]
      exact Row.isLive_restored (fun chosen => by simp [Row.isLive, had r member chosen])
        fun shown named => covers r member (by simpa [Row.isLive] using shown) (by simpa using named)
    have answer := Search.finder_marking restoring found kind after (fun _ => true) back whole ok
    rw [List.filter_true] at answer
    exact Search.answer_ok_iff.mpr ⟨positive, answer⟩

/-- A row in the middle of three is hidden and shown again, with the index built anew in between. -/
theorem softDelete_hides_second_of_three :
    let row (n : Nat) (title : String) (deletedAt : Option String) : Row := ⟨n, title, title ++ ".txt", "", "", deletedAt⟩
    let rows := [row 1 "a" none, row 2 "b" none, row 3 "b" (some "2024-05-01"), row 4 "c" none]
    let db : Database := ⟨false, [⟨"documents", .indexed (Database.indexingOf rows), rows⟩]⟩
    let tended (db : Database) := (Ingest.Maintenance.takeAll .standard [.rebuild, .optimize]
      (⟨db, "documents", none⟩ : StoredCollection)).2.database
    ∃ n hidden, db.softDelete "documents" "b" (some "2024-06-01") = .ok (n, hidden) ∧
      (searchAfter 0 db "documents" "\n" 4).1 = .ok (([1, 2, 4].zip ["a", "b", "c"]).map fun r =>
        Search.listed (row r.1 r.2 none)) ∧
      (searchAfter 0 (tended hidden) "documents" "\n" 4).1 =
        .ok [Search.listed (row 1 "a" none), Search.listed (row 4 "c" none)] ∧
      (searchAfter 0 (tended ((tended hidden).modify "documents" (·.mapRows
        (Row.setDeleted (fun r => r.rowid = 2) none)))) "documents" "\n" 4).1 =
        .ok (([1, 2, 4].zip ["a", "b", "c"]).map fun r => Search.listed (row r.1 r.2 none)) := by
  intro row rows db tended
  let t : Table := ⟨"documents", .indexed (Database.indexingOf rows), rows⟩
  have found : db.find? "documents" = some (.table t) := by decide +kernel
  have inStep : db.Everywhere Table.InStep := fun u member =>
    List.mem_singleton.mp member ▸ Database.inStep_indexingOf "documents" rows
  have shows : Search.hidesNumbers "documents" = false := by decide +kernel
  have all : (searchAfter 0 db "documents" "\n" 4).1 =
    .ok (([1, 2, 4].zip ["a", "b", "c"]).map fun r =>
      Search.listed (row r.1 r.2 none)) :=
    searchAfter_blank found rfl (by decide +kernel) (by decide) 0
  obtain ⟨n, hidden, deleted, without, again⟩ :=
    softDelete_hides found rfl inStep (by decide) shows (by decide) all "b"
    "2024-06-01" (by decide : MaintenanceStep.setRank ∉ [.rebuild, .optimize]) none 0
  refine ⟨n, hidden, deleted, all, without, ?_⟩
  exact again (fun n => n = 2) (by decide) (by decide)

/-- In a collection that hides the numbers of its rows, the hit that stays is given another one. -/
theorem softDelete_renumbers_hits :
    let row (n : Nat) (title : String) : Row := ⟨n, title, title ++ ".txt", "", "", none⟩
    let rows := [row 1 "a", row 2 "b"]
    let db : Database := ⟨false, [⟨"rowid", .indexed (Database.indexingOf rows), rows⟩]⟩
    ∃ n hidden hits, db.softDelete "rowid" "a" (some "2024-06-01") = .ok (n, hidden) ∧
      (searchAfter 0 db "rowid" "" 2).1 = .ok hits ∧
      ∀ later, 1 ≤ later → (searchAfter later hidden "rowid" "" 2).1 ≠ .ok
        (hits.filter (·.title ≠ "a")) := by
  intro row rows db
  let t : Table := ⟨"rowid", .indexed (Database.indexingOf rows), rows⟩
  have found : db.find? "rowid" = some (.table t) := by decide +kernel
  have hidden := Database.find?_mapRows found (Row.setDeleted (fun r => r.title = "a")
    (some "2024-06-01"))
  rw [← funext (Database.markDeleted_eq "a" (some "2024-06-01"))] at hidden
  refine ⟨_, _, _, by rw [Database.softDelete, found],
    searchAfter_blank found rfl rfl (by decide) 0, ?_⟩
  intro later positive same
  rw [searchAfter_blank hidden rfl rfl (by decide) later] at same
  have hides : Search.hidesNumbers "rowid" = true := by decide +kernel
  have numbers : [later + 1] = [1] := by
    simpa [t, rows, row, Table.mapRows, Row.setDeleted, List.filter_cons, Row.isLive,
      Search.listedAfter, hides, Search.listed, Hit.numbered,
      Search.greatestLimit] using congrArg (List.map
        (·.rowid)) (Except.ok.inj same)
  simp only [List.cons.injEq, Nat.add_eq_right, and_true] at numbers
  omega

end TextArchive
