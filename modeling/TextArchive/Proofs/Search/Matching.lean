import TextArchive.Proofs.Search.Cursors
import TextArchive.Proofs.Search.Hits

/-!
Which rows a text matches. That depends on what the index says, however it is cut into segments, and
not on the rank, which decides in which order matches come and with which scores: with another rank
the same rows match, and a search that has room for all of them shows the same of each.
-/

set_option autoImplicit false
set_option relaxedAutoImplicit false

namespace TextArchive

open TextArchive.Index (Statistics Tokenizer)
open TextArchive.Query (Expr)
open TextArchive.Store (Database Indexing Row StoreError Table)

private theorem map_ok_iff {α β ε : Type} {f : α → β} {result : Except ε α} {b : β} :
    result.map f = .ok b ↔ ∃ a, result = .ok a ∧ f a = b := by
  cases result <;> simp [Except.map]

private theorem mapError_ok_iff {α ε ε' : Type} {f : ε → ε'} {result : Except ε α} {a : α} :
    result.mapError f = .ok a ↔ result = .ok a := by
  cases result <;> simp [Except.mapError]

/-- Indexes that say the same, with the same tokenizer. -/
structure Store.Indexing.Agrees (i j : Indexing) : Prop where
  tokenizer : j.tokenizer = i.tokenizer
  entries : j.entries = i.entries

def Hit.unscored (h : Hit) : Hit :=
  { h with score := 0.0 }

namespace Search

/-- The rows of a collection that a text matches, live or not, in the order of their numbers. -/
def matched (db : Database) (collection text : String) : Except StoreError (List Row) :=
  match db.find? collection with
  | some (.table ⟨_, .indexed indexing, rows⟩) =>
    if (Text.trim text.toList).isEmpty then .ok rows
    else
      match expression indexing.tokenizer (Text.trim text.toList) with
      | .error e => .error (.query e)
      | .ok e =>
        let weights := (indexing.rank.map Index.RankExpression.weights).getD []
        .ok ((ranked indexing weights e rows).map (·.row))
  | _ => .error (.noSuchTable collection)

/-- A match but for its score. -/
def Ranked.unscored (r : Ranked) : Ranked :=
  { r with score := 0.0 }

section Ranked

variable {i j : Indexing} (agrees : i.Agrees j) (weights weights' : List Float) (e : Expr)
    (rows : List Row)
include agrees

private theorem ranked_unscored :
    (ranked j weights' e rows).map Ranked.unscored =
    (ranked i weights e rows).map Ranked.unscored := by
  simp only [ranked, agrees.entries, List.map_filterMap, Option.map_map, Function.comp_def,
    Ranked.unscored]

private theorem rows_ranked : (ranked j weights' e rows).map (·.row) = (ranked i weights e rows).map
    (·.row) := by
  have rows_unscored : ∀ l : List Ranked, (l.map Ranked.unscored).map (·.row) = l.map (·.row) := by
    intro l
    rw [List.map_map]
    rfl
  rw [← rows_unscored, ranked_unscored agrees weights weights', rows_unscored]

private theorem sorted_unscored :
    (((ranked j weights' e rows).mergeSort Ranked.le).map Ranked.unscored).Perm
      (((ranked i weights e rows).mergeSort Ranked.le).map Ranked.unscored) := by
  have sorted : ∀ indexing weights,
    (((ranked indexing weights e rows).mergeSort Ranked.le).map Ranked.unscored).Perm
      ((ranked indexing weights e rows).map Ranked.unscored) :=
    fun indexing weights => (List.mergeSort_perm _ _).map _
  have same := sorted j weights'
  rw [ranked_unscored agrees weights weights'] at same
  exact same.trans (sorted i weights).symm

private theorem bestFirst_unscored :
    ((bestFirst j weights' e rows).map Ranked.unscored).Perm
    ((bestFirst i weights e rows).map Ranked.unscored) := by
  have live : ∀ l : List Ranked, (l.filter fun r => r.row.isLive).map Ranked.unscored =
      (l.map Ranked.unscored).filter fun r => r.row.isLive := by
    intro l
    rw [List.filter_map]
    rfl
  rw [bestFirst, bestFirst, live, live]
  exact (sorted_unscored agrees weights weights' e rows).filter _

end Ranked

private theorem unscored_of_mapM {f : Ranked → Except StoreError Hit} {g : Ranked → Hit}
    (each : ∀ r h, f r = .ok h → h.unscored = g r.unscored) {found : List Ranked} {hits : List Hit}
    (ok : found.mapM f = .ok hits) : hits.map Hit.unscored = (found.map Ranked.unscored).map g := by
  have related := mapM_ok_iff.mp ok
  clear ok
  induction related with
  | nil => rfl
  | cons first _ rest => rw [List.map_cons, List.map_cons, List.map_cons, each _ _ first, rest]

section Shown

variable {tokenizer : Tokenizer} {e : Expr}

/-- What is shown of a match, but for its score. -/
def unscoredHit (tokenizer : Tokenizer) (e : Expr) (r : Ranked) : Hit :=
  ⟨r.row.rowid, r.row.title, r.row.sourcePath, r.row.tag, snippet tokenizer e r, 0.0⟩

private theorem unscored_of_hit (r : Ranked) (h : Hit) (ok : hit tokenizer e r = .ok h) :
    h.unscored = unscoredHit tokenizer e r.unscored := by
  rw [(number_of_hit ok).2]
  rfl

private theorem unscored_of_misread {indexing : Indexing} {weights : List Float} {s : Statistics}
    {row : Row} (r : Ranked) (h : Hit) (ok : misread indexing weights s e row r = .ok h) :
    h.unscored = unscoredHit indexing.tokenizer e { r.unscored with row } :=
  unscored_of_hit _ h ok

private theorem unscored_of_best {i j : Indexing} (agrees : i.Agrees j)
    {weights weights' : List Float} {rows : List Row} {limit : Nat} (all : rows.length ≤ limit)
    {hits hits' : List Hit} (ok : best i weights e rows limit = .ok hits)
    (ok' : best j weights' e rows limit = .ok hits') :
    (hits'.map Hit.unscored).Perm (hits.map Hit.unscored) := by
  have whole : ∀ indexing weights, best indexing weights e rows limit =
      (bestFirst indexing weights e rows).mapM (hit indexing.tokenizer e) := by
    intro indexing weights
    rw [← List.take_of_length_le (length_bestFirst_le.trans all)]
    rfl
  rw [whole] at ok ok'
  rw [unscored_of_mapM unscored_of_hit ok, unscored_of_mapM unscored_of_hit ok', agrees.tokenizer]
  exact (bestFirst_unscored agrees weights weights' e rows).map _

end Shown

section Hidden

variable {opened limit : Nat} {indexing : Indexing} {rows : List Row} {text : List Char} {e : Expr}

/-- What a collection that hides its numbers shows of a match, but for the score: one row is read in
the place of all matches, and it is shown if it is live. -/
def hiddenHit (opened : Nat) (tokenizer : Tokenizer) (e : Expr) (rows : List Row) (r : Ranked) :
    Option Hit :=
  ((rows.find? fun row => row.rowid = opened + 2).filter Row.isLive).map fun row =>
    (unscoredHit tokenizer e { r with row }).numbered (opened + 1)

private theorem unscored_of_rankHidden (indexing : Indexing) {hits : List Hit}
    (read : expression indexing.tokenizer text = .ok e)
    (ok : (rankHidden opened indexing rows text limit).hits = .ok hits) :
    let weights := (indexing.rank.map Index.RankExpression.weights).getD []
    let sorted := (ranked indexing weights e rows).mergeSort Ranked.le
    hits.map Hit.unscored =
      ((sorted.take limit).map Ranked.unscored).filterMap
        (hiddenHit opened indexing.tokenizer e rows) := by
  intro weights sorted
  simp only [rankHidden, read] at ok
  split at ok
  · rename_i nothing
    cases ok
    have none_sorted : sorted = [] := List.isEmpty_iff.mp nothing
    rw [none_sorted, List.take_nil]
    rfl
  split at ok
  · cases ok
  rename_i row found
  split at ok
  · rename_i live
    have placed : hiddenHit opened indexing.tokenizer e rows =
        fun r => some
          ((unscoredHit indexing.tokenizer e { r with row }).numbered (opened + 1)) := by
      funext r
      simp [hiddenHit, found, live]
    obtain ⟨shown, all, rfl⟩ := map_ok_iff.mp ok
    rw [List.mapM_map] at all
    have unscored := unscored_of_mapM (g := fun r => unscoredHit indexing.tokenizer e
      { r with row })
      unscored_of_misread all
    calc (shown.map (Hit.numbered (opened + 1))).map Hit.unscored
      _ = (shown.map Hit.unscored).map (Hit.numbered (opened + 1)) := by
        rw [List.map_map, List.map_map]
        rfl
      _ = (((sorted.take limit).map Ranked.unscored).map fun r =>
          unscoredHit indexing.tokenizer e { r with row }).map (Hit.numbered (opened + 1)) := by
        rw [unscored]
      _ = ((sorted.take limit).map Ranked.unscored).filterMap
        (hiddenHit opened indexing.tokenizer e rows) := by
        rw [placed, List.filterMap_eq_map', List.map_map]
        rfl
  · rename_i dead
    cases ok
    have hidden : hiddenHit opened indexing.tokenizer e rows = fun _ => none := by
      funext r
      simp [hiddenHit, found, dead]
    simp [hidden]

private theorem reranked_rankHidden {i j : Indexing} (agrees : i.Agrees j)
    (all : rows.length ≤ limit) {hits hits' : List Hit}
    (ok : (rankHidden opened i rows text limit).hits = .ok hits)
    (ok' : (rankHidden opened j rows text limit).hits = .ok hits') :
    (hits'.map Hit.unscored).Perm (hits.map Hit.unscored) := by
  cases read : expression i.tokenizer text with
  | error error => simp [rankHidden, read] at ok
  | ok e =>
    have whole : ∀ indexing weights, ((ranked indexing weights e rows).mergeSort
      Ranked.le).take limit =
        (ranked indexing weights e rows).mergeSort Ranked.le :=
      fun indexing weights => List.take_of_length_le (length_sorted_le.trans all)
    have shown := unscored_of_rankHidden i read ok
    have shown' := unscored_of_rankHidden j (agrees.tokenizer ▸ read) ok'
    simp only [whole, agrees.tokenizer] at shown shown'
    rw [shown, shown']
    exact (sorted_unscored agrees _ _ e rows).filterMap _

end Hidden

section Reranked

variable {db db' : Database} {collection name : String} {i j : Indexing} (agrees : i.Agrees j)
    {rows : List Row}
  (found : db.find? collection = some (.table ⟨name, .indexed i, rows⟩))
  (found' : db'.find? collection = some (.table ⟨name, .indexed j, rows⟩))
include agrees found found'

/-- With another rank and other segments the same rows match. -/
theorem matched_reranked (text : String) : matched db' collection text =
    matched db collection text := by
  simp only [matched, found, found', agrees.tokenizer]
  split
  · rfl
  split
  · rfl
  · rw [rows_ranked agrees]

private theorem reranked_rankCollection {text : List Char} {limit : Nat} (all : rows.length ≤ limit)
    {hits hits' : List Hit} (ok : rankCollection db collection text limit = .ok hits)
    (ok' : rankCollection db' collection text limit = .ok hits') :
    (hits'.map Hit.unscored).Perm (hits.map Hit.unscored) := by
  unfold rankCollection at ok ok'
  split at ok
  · cases ok
  rename_i words
  rw [if_neg words] at ok'
  split at ok
  · rename_i time
    rw [if_pos time] at ok'
    simp only [searchTime, found, found'] at ok ok'
    rw [ok] at ok'
    cases ok'
    exact .refl _
  rename_i time
  rw [if_neg time] at ok'
  simp only [found, found', agrees.tokenizer] at ok ok'
  cases read : expression i.tokenizer text with
  | error error => simp [read] at ok
  | ok e =>
    simp only [read] at ok ok'
    exact unscored_of_best agrees all ok ok'

theorem reranked_searchAfter {opened topK : Nat} {text : String}
    (all : rows.length ≤ min topK greatestLimit) {hits hits' : List Hit}
    (ok : (searchAfter opened db collection text topK).1 = .ok hits)
    (ok' : (searchAfter opened db' collection text topK).1 = .ok hits') :
    (hits'.map Hit.unscored).Perm (hits.map Hit.unscored) := by
  cases hides : hidesNumbers collection with
  | false =>
    rw [searchAfter_eq hides] at ok ok'
    obtain ⟨-, ok⟩ := answer_ok_iff.mp ok
    obtain ⟨-, ok'⟩ := answer_ok_iff.mp ok'
    unfold finder at ok ok'
    split at ok
    · rename_i blank
      simp only [blank, if_true, listCollection, found, found'] at ok ok'
      cases ok
      cases ok'
      exact .refl _
    · rename_i words
      rw [if_neg words] at ok'
      exact reranked_rankCollection agrees found found' all ok ok'
  | true =>
    simp only [searchAfter, hides, found, found'] at ok ok'
    split at ok
    · cases ok
    rename_i positive
    rw [if_neg positive] at ok'
    rw [mapError_ok_iff] at ok ok'
    simp only [searchHidden] at ok ok'
    split at ok
    · rename_i blank
      simp only [blank, if_true, listing] at ok'
      cases ok
      cases ok'
      exact .refl _
    · rename_i words
      rw [if_neg words] at ok'
      exact reranked_rankHidden agrees all ok ok'

end Reranked

end Search

end TextArchive
