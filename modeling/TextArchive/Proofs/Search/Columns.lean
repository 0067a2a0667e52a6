import TextArchive.Proofs.Number.Finiteness
import TextArchive.Proofs.Search.Matching
import TextArchive.Proofs.Search.RankGrammar
import TextArchive.Proofs.Search.Words
import TextArchive.Proofs.Store.Arising

/-!
Which weight a score depends on. The texts of a row are the columns of the index, in the order of
the weights in a rank; a row where a word occurs in one column alone is scored by the weight of this
column, whatever the other weights are.
-/

set_option autoImplicit false
set_option relaxedAutoImplicit false

namespace TextArchive

open TextArchive.Index (Document Position Statistics Tokenizer)
open TextArchive.Number
open TextArchive.Query (IsBareword Occurs Phrase ofTerms)
open TextArchive.Store (Database Indexing Row StoreError Table)

inductive Column where
  | title
  | sourcePath
  | content
  | tag
deriving DecidableEq, Repr

namespace Column

def index : Column → Nat
  | title => 0
  | sourcePath => 1
  | content => 2
  | tag => 3

def text (r : Row) : Column → String
  | title => r.title
  | sourcePath => r.sourcePath
  | content => r.content
  | tag => r.tag

def weight (w : Weights) : Column → Float
  | title => w.title
  | sourcePath => w.sourcePath
  | content => w.content
  | tag => w.tag

private theorem exists_of_texts {r : Row} {i : Nat} {cs : List Char}
    (stands : r.texts[i]? = some cs) :
    ∃ column : Column, column.index = i ∧ (column.text r).toList = cs := by
  match i with
  | 0 => exact ⟨title, rfl, Option.some.inj stands⟩
  | 1 => exact ⟨sourcePath, rfl, Option.some.inj stands⟩
  | 2 => exact ⟨content, rfl, Option.some.inj stands⟩
  | 3 => exact ⟨tag, rfl, Option.some.inj stands⟩
  | _ + 4 => cases stands

private theorem getElem?_weights (column : Column) {w : Weights} (finite : w.allFinite = true) :
    (Index.RankExpression.weights w.expression)[column.index]? =
      some (Index.RankExpression.number (Weights.plainStyle.render (column.weight w))) := by
  rw [Index.RankExpression.weights_expression finite]
  cases column <;> rfl

end Column

/-- Whether a word occurs in a column of a row and in no other one, if it occurs at all. -/
def OccursOnlyIn (tokenizer : Tokenizer) (w : List Char) (column : Column) (r : Row) : Prop :=
  ∀ other : Column, other ≠ column → ¬ Occurs (tokenizer.terms w)
    (tokenizer.terms (other.text r).toList)

namespace Index.Score

section Frequency

variable {weights : List Float} {positions : List Position} {i : Nat} {x y : Float}

private theorem frequency_of_column (only : ∀ p ∈ positions, p.column = i)
    (stated : weights[i]? = some x) :
    frequency weights positions = positions.foldl (fun sum _ => sum + x) 0.0 := by
  refine List.foldl_ext _ _ _ fun sum p member => ?_
  rw [only p member, stated]
  rfl

private theorem foldl_add_zero (zero : x = 0.0 ∨ x = -0.0) :
    positions.foldl (fun sum _ => sum + x) 0.0 = 0.0 := by
  have same : (0.0 : Float) + x = 0.0 := by rcases zero with rfl | rfl <;> rfl
  induction positions with
  | nil => rfl
  | cons p positions ih => rw [List.foldl_cons, same, ih]

private theorem number_render_zero (zero : x = 0.0 ∨ x = -0.0) :
    RankExpression.number (Weights.plainStyle.render x) = 0.0 ∨
      RankExpression.number (Weights.plainStyle.render x) = -0.0 := by
  rcases zero with rfl | rfl
  · exact .inl (by decide +kernel)
  · exact .inr (by decide +kernel)

private theorem frequency_congr {column : Column} (only : ∀ p ∈ positions, p.column = column.index)
    {w₁ w₂ : Weights} (finite₁ : w₁.allFinite = true) (finite₂ : w₂.allFinite = true)
    (same : (column.weight w₁ == column.weight w₂) = true) :
    frequency (RankExpression.weights w₁.expression) positions =
      frequency (RankExpression.weights w₂.expression) positions := by
  rw [frequency_of_column only (column.getElem?_weights finite₁),
    frequency_of_column only (column.getElem?_weights finite₂)]
  rcases Binary64.eq_of_beq same with equal | ⟨zero₁, zero₂⟩
  · rw [equal]
  · rw [foldl_add_zero (number_render_zero zero₁), foldl_add_zero (number_render_zero zero₂)]

end Frequency

private theorem score_congr {weights weights' : List Float} (s : Statistics) (size : Nat)
    {positions : List (List Position)}
    (same : ∀ ps ∈ positions, frequency weights ps = frequency weights' ps) :
    score weights s size positions = score weights' s size positions := by
  unfold score
  refine congrArg (· * (-1.0)) (List.foldl_ext _ _ _ fun sum p member => ?_)
  rw [same p.2 (List.of_mem_zip member).2]

end Index.Score

namespace Search

section Scores

variable {indexing : Indexing} {w : List Char} {column : Column} {rows : List Row} {r : Row}

private theorem column_of_position {tokenizer : Tokenizer}
    (only : OccursOnlyIn tokenizer w column r) {p : Position}
    (member : p ∈ (Phrase.ofTerms (tokenizer.terms w)).positions none (Document.ofTexts tokenizer r.texts)) :
    p.column = column.index := by
  obtain ⟨words, stands, occurs, -⟩ := Query.occurs_of_mem_positions _ _ member
  rw [Document.ofTexts, List.getElem?_map] at stands
  obtain ⟨cs, text, rfl⟩ := Option.map_eq_some_iff.mp stands
  obtain ⟨other, place, rfl⟩ := Column.exists_of_texts text
  by_cases this : other = column
  · rw [← place, this]
  · exact absurd occurs (only other this)

private theorem scoreAmong_congr (covers : indexing.Covers rows)
    (ordered : rows.Pairwise (·.rowid < ·.rowid)) (here : r ∈ rows)
    (only : OccursOnlyIn indexing.tokenizer w column r) {w₁ w₂ : Weights}
    (finite₁ : w₁.allFinite = true) (finite₂ : w₂.allFinite = true)
    (same : (column.weight w₁ == column.weight w₂) = true) :
    let scored (w' : Weights) := scoreAmong indexing (Index.RankExpression.weights w'.expression)
      (ofTerms (indexing.tokenizer.terms w)) r
    scored w₁ = scored w₂ := by
  intro scored
  simp only [scored, scoreAmong_ofTerms covers ordered _ _ here rfl]
  split
  · refine congrArg some (Index.Score.score_congr _ _ fun ps member => ?_)
    rw [List.mem_singleton.mp member]
    exact Index.Score.frequency_congr
      (fun p inside => column_of_position only inside) finite₁ finite₂ same
  · rfl

end Scores

private theorem scoreOf_word {text : String} (word : IsBareword (Text.trim text.toList))
    (indexing : Indexing) (rank : String)
    (r : Row) : scoreOf (indexing.withRank rank) text r =
      scoreAmong indexing (Index.RankExpression.weights rank)
        (ofTerms (indexing.tokenizer.terms (Text.trim text.toList))) r := by
  have words : (Text.trim text.toList).isEmpty = false := by simpa using word.filled
  simp only [scoreOf, words, Bool.false_eq_true, if_false, word.expression, Indexing.withRank,
    Option.map_some, Option.getD_some]
  rfl

section Hits

variable {db : Database} {collection : String} {t : Table} {indexing : Indexing}

private theorem score_of_hit (found : db.find? collection = some (.table t))
    (kind : t.kind = .indexed indexing) (ordered : t.rows.Pairwise (·.rowid < ·.rowid))
    (numbered : hidesNumbers collection = false) {text : String}
    (words : Text.trim text.toList ≠ []) {topK opened : Nat} {hits : List Hit}
    (ok : (searchAfter opened db collection text topK).1 = .ok hits) {h : Hit} (shows : h ∈ hits)
    {r : Row}
    (here : r ∈ t.rows) (same : h.rowid = r.rowid) : scoreOf indexing text r = some h.score := by
  rw [searchAfter_eq numbered] at ok
  obtain ⟨positive, ok⟩ := answer_ok_iff.mp ok
  have some_words : (Text.trim text.toList).isEmpty = false := by simpa using words
  simp only [finder, some_words, Bool.false_eq_true, if_false] at ok
  have some_limit : 1 ≤ min topK greatestLimit := Nat.le_min.mpr ⟨positive, by decide⟩
  obtain ⟨all, listing, -, shown⟩ :=
    hits_of_rankCollection found ordered kind some_limit some_words ok
  have told : h.shown ∈ (all.take (min topK greatestLimit)).map Search.shown :=
    shown ▸ List.mem_map_of_mem shows
  obtain ⟨⟨r', x⟩, member, equal⟩ := List.mem_map.mp told
  obtain ⟨there, -, score⟩ := (listing.members r' x).mp (List.mem_of_mem_take member)
  have number : r'.rowid = h.rowid := congrArg (·.1) equal
  have value : x = h.score := congrArg (·.2.2.2.2) equal
  have distinct : (t.rows.map (·.rowid)).Nodup := List.pairwise_map.mpr (ordered.imp Nat.ne_of_lt)
  have row : r' = r := List.inj_on_of_nodup_map distinct there here (number.trans same)
  rw [← row, score, value]

end Hits

section Hidden

variable {opened limit : Nat} (indexing : Indexing) {rows : List Row} {text : List Char}
    {e : Query.Expr}
  {places : List (List Position)} {row : Row}

private theorem fits_of_elsewhere {tokenizer : Tokenizer}
    (elsewhere : ∀ p ∈ places.flatten, p.column ≠ excerptColumn)
    (x : Float) : Ranked.fits tokenizer ⟨row, places, x⟩ = true :=
  List.all_eq_true.mpr fun p here => by simp [elsewhere p here]

private theorem ranked_of_same_places (weights : List Float)
    (alike : ∀ r ∈ rows, ∃ m, matchOf indexing e r = some m ∧ m.positions = places) :
    (∀ r ∈ ranked indexing weights e rows, r.positions = places) ∧
      (ranked indexing weights e rows).length = rows.length := by
  constructor
  · intro r member
    obtain ⟨row, here, made⟩ := List.mem_filterMap.mp member
    obtain ⟨m, known, same⟩ := alike row here
    replace made : (matchOf indexing e row).map _ = some r := made
    rw [known] at made
    cases made
    exact same
  · refine List.filterMap_length_eq_length.mpr fun r here => ?_
    obtain ⟨m, known, -⟩ := alike r here
    show ((matchOf indexing e r).map _).isSome = true
    rw [known]
    rfl

private theorem rankHidden_of_same_places (read : expression indexing.tokenizer text = .ok e)
    (filled : rows ≠ [])
    (alike : ∀ r ∈ rows, ∃ m, matchOf indexing e r = some m ∧ m.positions = places)
    (found : rows.find? (fun r => r.rowid = opened + 2) = some row) (live : row.isLive = true)
    (elsewhere : ∀ p ∈ places.flatten, p.column ≠ excerptColumn)
    (number : Binary64.isNaN (Index.Score.score ((indexing.rank.map Index.RankExpression.weights).getD [])
      (statistics indexing e) (Document.ofTexts indexing.tokenizer row.texts).size places) = false)
    (all : rows.length ≤ limit) :
    ∃ h, rankHidden opened indexing rows text limit =
        ⟨.ok (List.replicate rows.length h), opened + 2 + e.phrases.length + e.phrases.length⟩ ∧
      h.rowid = opened + 1 ∧ h.title = row.title := by
  let weights := (indexing.rank.map Index.RankExpression.weights).getD []
  let sorted := (ranked indexing weights e rows).mergeSort Ranked.le
  obtain ⟨placed, count⟩ := ranked_of_same_places indexing weights alike
  replace placed : ∀ r ∈ sorted, r.positions = places :=
    fun r member => placed r (List.mem_mergeSort.mp member)
  replace count : sorted.length = rows.length := (List.length_mergeSort _).trans count
  have some_sorted : sorted ≠ [] := by
    intro none_sorted
    rw [none_sorted] at count
    exact filled (List.length_eq_zero_iff.mp count.symm)
  have fits := @fits_of_elsewhere _ row indexing.tokenizer elsewhere
  obtain ⟨h, ok⟩ := @exists_hit _ e _ (fits _) number
  have title : h.title = row.title := (number_of_hit ok).2 ▸ rfl
  have read_alike : ∀ r ∈ sorted, misread indexing weights (statistics indexing e) e row r =
    .ok h := by
    intro r member
    rw [misread, placed r member]
    exact ok
  have taken : sorted.take limit = sorted := List.take_of_length_le (count.trans_le all)
  have shown : sorted.map (misread indexing weights (statistics indexing e) e row) = List.replicate
    rows.length (.ok h) := by
    rw [List.map_congr_left read_alike, List.map_const', count]
  have answered : (List.replicate rows.length (Except.ok h)).mapM (id : Except StoreError Hit → _) =
      .ok (List.replicate rows.length h) :=
    mapM_ok_iff.mpr (List.forall₂_iff_get.mpr ⟨by simp, by simp⟩)
  have asked : scoreCursors e (List.replicate rows.length (.ok h)) = e.phrases.length := by
    cases rows with
    | nil => exact absurd rfl filled
    | cons r rows => rfl
  refine ⟨h.numbered (opened + 1), ?_, rfl, title⟩
  simp only [rankHidden, read]
  rw [if_neg (show ¬ sorted.isEmpty = true by simpa using some_sorted)]
  simp only [found, live, if_true]
  show Answered.mk
    ((((sorted.take limit).map (misread indexing weights (statistics indexing e) e row)).mapM id).map _)
    (_ + scoreCursors e ((sorted.take limit).map (misread indexing weights (statistics indexing e) e row))) = _
  rw [taken, shown, answered, asked]
  exact congrArg (Answered.mk · _) (congrArg Except.ok (List.map_replicate ..))

end Hidden

end Search

/-- Each weight governs its own column. Two ranks that give a column the same weight, be one set
after the other or not, find the same rows for a word if all rows are asked for, and the rows where
the word occurs in this column alone have the same scores. The collection must not be one that hides
the numbers of its rows. -/
theorem weight_governs_column {db db₁ db₂ : Database} (arises : db.Arises) {collection : String}
    {t : Table} {indexing : Indexing} (found : db.find? collection = some (.table t))
    (kind : t.kind = .indexed indexing) (numbered : Search.hidesNumbers collection = false)
    (bounded : t.rows.length < 2 ^ 63) (column : Column) {w₁ w₂ : Weights}
    (finite₁ : w₁.allFinite = true) (finite₂ : w₂.allFinite = true)
    (same : (column.weight w₁ == column.weight w₂) = true)
    (set₁ : db.setRank collection w₁.expression = .ok db₁)
    (set₂ : db.setRank collection w₂.expression = .ok db₂) {text : String}
    (word : IsBareword (Text.trim text.toList)) {topK opened₁ opened₂ : Nat}
    (all : t.rows.length ≤ topK) {hits₁ hits₂ : List Hit}
    (ok₁ : (searchAfter opened₁ db₁ collection text topK).1 = .ok hits₁)
    (ok₂ : (searchAfter opened₂ db₂ collection text topK).1 = .ok hits₂) :
    db₁.setRank collection w₂.expression = .ok db₂ ∧
    (hits₂.map Hit.unscored).Perm (hits₁.map Hit.unscored) ∧
    ∀ r ∈ t.rows, OccursOnlyIn indexing.tokenizer (Text.trim text.toList) column r →
      ∀ h₁ ∈ hits₁, ∀ h₂ ∈ hits₂, h₁.rowid = r.rowid → h₂.rowid = r.rowid →
      h₁.score = h₂.score := by
  obtain rfl := Database.eq_of_setRank set₁
  obtain rfl := Database.eq_of_setRank set₂
  have sound := arises.sound
  obtain ⟨member, -⟩ := Database.mem_of_find? found
  have covers := arises.inStep t member indexing kind
  have ordered := arises.ordered t member
  have found₁ := sound.find?_ranked found kind w₁.expression
  have found₂ := sound.find?_ranked found kind w₂.expression
  refine ⟨?_, ?_, ?_⟩
  · have there : (db.modify collection (Table.reindex
      (Indexing.withRank w₁.expression))).IsCollection
      collection :=
      ⟨_, _, found₁, rfl⟩
    rw [there.setRank_of_finite finite₂, Database.modify_withRank_again]
  · have room : t.rows.length ≤ min topK Search.greatestLimit := by
      unfold Search.greatestLimit
      omega
    let ranked := db.modify collection (Table.reindex (Indexing.withRank w₂.expression))
    have alike : (searchAfter opened₁ ranked collection text topK).1 = .ok hits₂ := by
      rw [searchAfter_eq numbered] at ok₂ ⊢
      exact ok₂
    have agrees : (indexing.withRank w₁.expression).Agrees
      (indexing.withRank w₂.expression) := ⟨rfl, rfl⟩
    exact Search.reranked_searchAfter agrees found₁ found₂ room ok₁ alike
  · intro r here only h₁ shows₁ h₂ shows₂ same₁ same₂
    have score₁ := Search.score_of_hit found₁ rfl ordered numbered word.filled ok₁ shows₁ here same₁
    have score₂ := Search.score_of_hit found₂ rfl ordered numbered word.filled ok₂ shows₂ here same₂
    rw [Search.scoreOf_word word] at score₁ score₂
    have scores := Search.scoreAmong_congr covers ordered here only finite₁ finite₂ same
    exact Option.some.inj (score₁.symm.trans (scores.trans score₂))

/-- A word in the titles of two rows, one of which also has it in its content. -/
theorem weight_governs_title_of_two :
    let record (content : String) : Record := ⟨"cat", "", content, "", none⟩
    let db := Database.ofRecords "documents" [record "", record "cat"]
    let w₁ : Weights := ⟨3.0, 1.0, 1.0, 1.0⟩
    let w₂ : Weights := ⟨3.0, 2.0, 2.0, 2.0⟩
    db.Arises ∧ OccursOnlyIn .standard "cat".toList .title (Row.ofRecord 1 (record "")) ∧
      ∃ db₁ db₂ hits₁ hits₂, db.setRank "documents" w₁.expression = .ok db₁ ∧
        db₁.setRank "documents" w₂.expression = .ok db₂ ∧
        (searchAfter 0 db₁ "documents" "cat" 2).1 = .ok hits₁ ∧
          (searchAfter 0 db₂ "documents" "cat" 2).1 = .ok hits₂ ∧
        (hits₂.map Hit.unscored).Perm (hits₁.map Hit.unscored) ∧
        ∃ h₁ ∈ hits₁, ∃ h₂ ∈ hits₂, h₁.rowid = 1 ∧ h₂.rowid = 1 ∧ h₁.score = h₂.score := by
  intro record db w₁ w₂
  let r : Row := Row.ofRecord 1 (record "")
  let rows := Row.numberedFrom 1 [record "", record "cat"]
  let t : Table := ⟨"documents", .indexed (Database.indexingOf rows), rows⟩
  have arises : db.Arises := Database.arises_ofRecords (by decide +kernel) _
  have found : db.find? "documents" = some (.table t) := Database.find?_ofRecords _ _
  have kind : t.kind = .indexed (Database.indexingOf rows) := rfl
  have inStep : t.InStep := Database.inStep_indexingOf "documents" rows
  have ordered : t.rows.Pairwise (·.rowid < ·.rowid) := by decide
  have plain : Store.Name.isAmong Search.otherMeanings "documents" = false := by decide +kernel
  have word : Query.IsWord "cat".toList := by decide +kernel
  have only : OccursOnlyIn .standard "cat".toList .title r := by
    have empty : Tokenizer.standard.terms "".toList = [] := by decide +kernel
    intro other apart occurs
    have blank : other.text r = "" := by cases other <;> first | rfl | exact absurd rfl apart
    rw [blank, empty] at occurs
    exact occurs.1 (List.eq_nil_of_infix_nil occurs.2)
  have searched : ∀ w : Weights, Index.Moderate (Index.RankExpression.weights w.expression) →
      let ranked := db.modify "documents" (Table.reindex (Indexing.withRank w.expression))
      ∃ hits, (searchAfter 0 ranked "documents" "cat" 2).1 = .ok hits ∧
        ∃ h ∈ hits, h.rowid = 1 := by
    intro w moderate
    have there := arises.sound.find?_ranked found kind w.expression
    have stated : Index.Moderate (((some w.expression).map
      Index.RankExpression.weights).getD []) := by
      rwa [Option.map_some, Option.getD_some]
    have ranked_step : Table.InStep
      ⟨t.name, .indexed ((Database.indexingOf rows).withRank w.expression), t.rows⟩ := by
      rintro _ ⟨⟩
      exact inStep (Database.indexingOf rows) rfl
    have few : t.rows.length < 2 ^ 63 := by decide
    have short : ∀ r ∈ t.rows, ∀ text ∈ r.texts, text.length < 2 ^ 31 := by decide
    obtain ⟨hits, ok, exactly⟩ :=
      search_word there rfl rfl stated ranked_step ordered plain few short word
      (by decide) (show t.rows.length ≤ 2 by decide) 0
    have holds : (r.isLive && Search.holds (Query.termOf "cat".toList) r) = true := by
      decide +kernel
    have shown : Search.rowFields r ∈ hits.map Search.fields :=
      exactly.mem_iff.mpr (List.mem_map_of_mem (List.mem_filter.mpr ⟨List.mem_cons_self, holds⟩))
    obtain ⟨h, member, same⟩ := List.mem_map.mp shown
    exact ⟨hits, ok, h, member, congrArg (·.1) same⟩
  have stated₁ : Index.RankExpression.weights w₁.expression = [3, 1, 1, 1].map Float.ofNat := by
    decide +kernel
  have stated₂ : Index.RankExpression.weights w₂.expression = [3, 2, 2, 2].map Float.ofNat := by
    decide +kernel
  obtain ⟨hits₁, ok₁, h₁, shows₁, one₁⟩ := searched w₁
    (stated₁ ▸ Index.moderate_of_whole (by decide))
  obtain ⟨hits₂, ok₂, h₂, shows₂, one₂⟩ := searched w₂
    (stated₂ ▸ Index.moderate_of_whole (by decide))
  have there : db.IsCollection "documents" := ⟨t, _, found, rfl⟩
  have numbered : Search.hidesNumbers "documents" = false := by decide +kernel
  have finite₁ : w₁.allFinite = true := by decide +kernel
  have finite₂ : w₂.allFinite = true := by decide +kernel
  have same : (Column.title.weight w₁ == Column.title.weight w₂) = true := by decide +kernel
  have bare : IsBareword (Text.trim "cat".toList) := word.trim ▸ word.isBareword
  obtain ⟨after, alike, scores⟩ :=
    weight_governs_column arises found kind numbered (by decide) .title finite₁ finite₂
    same (there.setRank_of_finite finite₁) (there.setRank_of_finite finite₂) bare
      (show t.rows.length ≤ 2 by decide) ok₁ ok₂
  rw [word.trim] at scores
  have score := scores r List.mem_cons_self only h₁ shows₁ h₂ shows₂ one₁ one₂
  exact ⟨arises, only, _, _, hits₁, hits₂, there.setRank_of_finite finite₁, after, ok₁, ok₂, alike,
    h₁, shows₁, h₂, shows₂, one₁, one₂, score⟩

/-- In a collection that hides the numbers of its rows, another row stands for all of them after
each search. -/
theorem hidden_rows_change_with_rank :
    let titles := ["word a", "word b", "word c", "word d", "word e", "word f"]
    let db := Database.ofRecords "rowid" (titles.map (⟨·, "", "", "", none⟩))
    let w₁ : Weights := ⟨3.0, 1.0, 1.0, 1.0⟩
    let w₂ : Weights := ⟨3.0, 2.0, 2.0, 2.0⟩
    db.Arises ∧ w₁.allFinite = true ∧ w₂.allFinite = true ∧
      (Column.title.weight w₁ == Column.title.weight w₂) = true ∧
      ∃ db₁ db₂ hits₁ hits₂, db.setRank "rowid" w₁.expression = .ok db₁ ∧
        db₁.setRank "rowid" w₂.expression = .ok db₂ ∧
        searchAfter 0 db₁ "rowid" "word" 6 = (.ok hits₁, 4) ∧
          (searchAfter 4 db₂ "rowid" "word" 6).1 = .ok hits₂ ∧
        ¬ (hits₂.map Hit.unscored).Perm (hits₁.map Hit.unscored) := by
  intro titles db w₁ w₂
  let rows := Row.numberedFrom 1 (titles.map (⟨·, "", "", "", none⟩))
  let t : Table := ⟨"rowid", .indexed (Database.indexingOf rows), rows⟩
  let term := Query.termOf "word".toList
  have arises : db.Arises := Database.arises_ofRecords (by decide +kernel) _
  have found : db.find? "rowid" = some (.table t) := Database.find?_ofRecords _ _
  have sound : db.Sound := arises.sound
  have hides : Search.hidesNumbers "rowid" = true := by decide +kernel
  have word : Query.IsWord "word".toList := by decide +kernel
  have ordered : rows.Pairwise (·.rowid < ·.rowid) := by decide
  have occurs : ∀ r ∈ rows, ∃ column ∈ (Document.ofTexts .standard r.texts).columns,
    Occurs [term] column := by
    decide +kernel
  have same_places : ∀ r ∈ rows, (Phrase.ofTerms [term]).positions none
    (Document.ofTexts .standard r.texts) =
      [⟨0, 0⟩] := by decide +kernel
  have sizes : ∀ r ∈ rows, (Document.ofTexts .standard r.texts).size = 2 := by decide +kernel
  have searched : ∀ (w : Weights) (opened : Nat) (row : Row),
      Index.Moderate (Index.RankExpression.weights w.expression) →
      t.rows.find? (fun r => r.rowid = opened + 2) = some row → row.isLive = true →
      ∃ h, searchAfter opened
        (db.modify "rowid" (Table.reindex (Indexing.withRank w.expression))) "rowid" "word" 6 =
        (.ok (List.replicate 6 h), opened + 4) ∧ h.title = row.title := by
    intro w opened row moderate read live
    let indexing := (Database.indexingOf rows).withRank w.expression
    have ranked := sound.find?_ranked found rfl w.expression
    have covers : indexing.Covers rows := Database.inStep_indexingOf "rowid" rows
      (Database.indexingOf rows) rfl
    have alike : ∀ r ∈ rows, ∃ m, Search.matchOf indexing (Query.single term) r = some m ∧
      m.positions = [[⟨0, 0⟩]] := by
      intro r here
      have matched := Search.matchOf_ofTerms covers ordered [term] here
        (rfl : Document.ofTexts .standard r.texts = _)
      rw [if_pos (occurs r here)] at matched
      exact ⟨_, matched, congrArg (fun places => [places]) (same_places r here)⟩
    have stated : Index.Moderate (((some w.expression).map
      Index.RankExpression.weights).getD []) := by
      rwa [Option.map_some, Option.getD_some]
    let statistics := Search.statistics indexing (Query.single term)
    have documents : statistics.documents = 6 := List.length_map _
    have number := Index.Score.isNaN_score (s := statistics) stated (documents ▸ by decide)
      (documents ▸ by decide)
      (show 0 < 2 by decide) (show 2 < 2 ^ 40 by decide)
      (List.forall_mem_singleton.mpr (show [Position.mk 0 0] ≠ [] ∧ [Position.mk 0 0].length ≤ 2 by decide))
    rw [← sizes row (List.mem_of_find?_eq_some read)] at number
    obtain ⟨h, answered, -, title⟩ := Search.rankHidden_of_same_places indexing word.expression
      (show rows ≠ [] by decide) alike read live (by decide) number (show rows.length ≤ 6 by decide)
    refine ⟨h, ?_, title⟩
    have words : (Text.trim "word".toList).isEmpty = false := by decide +kernel
    simp only [searchAfter, hides, ranked, Search.searchHidden, words, Bool.false_eq_true, if_false]
    rw [if_neg (show ¬ 6 = 0 by decide), show min 6 Search.greatestLimit = 6 by decide, answered]
    rfl
  obtain ⟨b, answer₁, titleB⟩ := searched w₁ 0 ⟨2, "word b", "", "", "", none⟩
    ((show Index.RankExpression.weights w₁.expression = [3, 1, 1,
      1].map Float.ofNat by decide +kernel) ▸
      Index.moderate_of_whole (by decide)) rfl rfl
  obtain ⟨f, answer₂, titleF⟩ := searched w₂ 4 ⟨6, "word f", "", "", "", none⟩
    ((show Index.RankExpression.weights w₂.expression = [3, 2, 2,
      2].map Float.ofNat by decide +kernel) ▸
      Index.moderate_of_whole (by decide)) rfl rfl
  have there : db.IsCollection "rowid" := ⟨t, _, found, rfl⟩
  have finite₁ : w₁.allFinite = true := by decide +kernel
  have finite₂ : w₂.allFinite = true := by decide +kernel
  have there₁ : (db.modify "rowid" (Table.reindex
    (Indexing.withRank w₁.expression))).IsCollection "rowid" :=
    ⟨_, _, sound.find?_ranked found rfl w₁.expression, rfl⟩
  have again := there₁.setRank_of_finite finite₂
  rw [Database.modify_withRank_again] at again
  refine ⟨arises, finite₁, finite₂, by decide +kernel, _, _, _, _,
    there.setRank_of_finite finite₁, again, answer₁, congrArg Prod.fst answer₂, ?_⟩
  intro alike
  have shown : f.unscored ∈ (List.replicate 6 b).map Hit.unscored :=
    alike.mem_iff.mp (List.mem_cons_self ..)
  obtain ⟨h, member, same⟩ := List.mem_map.mp shown
  have title : h.unscored.title = f.unscored.title := congrArg Hit.title same
  rw [List.eq_of_mem_replicate member] at title
  have equal : "word b" = "word f" := titleB.symm.trans (title.trans titleF)
  exact absurd equal (by decide)

end TextArchive
