import TextArchive.Proofs.Query.Word
import TextArchive.Proofs.Search.Cursors
import TextArchive.Proofs.Search.Hits
import TextArchive.Proofs.Search.Phrases
import TextArchive.Proofs.Search.Scores

/-!
What a search for one word finds: the live rows one of whose texts has the word as a term, each of
them once.
-/

set_option autoImplicit false
set_option relaxedAutoImplicit false

namespace TextArchive

open TextArchive.Index (Document Moderate Statistics Tokenizer)
open TextArchive.Number
open TextArchive.Query (IsBareword IsWord)
open TextArchive.Store (Database Indexing Row StoreError Table)

theorem exists_mapM_ok {α β ε : Type} {f : α → Except ε β} {l : List α}
    (each : ∀ a ∈ l, ∃ b, f a = .ok b) :
    ∃ found, l.mapM f = .ok found := by
  induction l with
  | nil => exact ⟨[], rfl⟩
  | cons a l ih =>
    obtain ⟨b, first⟩ := each a List.mem_cons_self
    obtain ⟨found, rest⟩ := ih fun c member => each c (List.mem_cons_of_mem _ member)
    exact ⟨b :: found, by simp [List.mapM_cons, first, rest, bind, Except.bind, pure, Except.pure]⟩

section Sizes

open TextArchive.Index in
private theorem Index.WordRule.length_tokensOf_le (rule : WordRule) (cs : List (Nat × Char)) :
    (rule.tokensOf cs).length ≤ cs.length := by
  fun_induction rule.tokensOf cs with
  | case1 => exact Nat.le_refl _
  | case2 start c rest starts ih =>
    have shorter :=
      (List.dropWhile_sublist (fun p : Nat × Char => rule.continues p.2) (l := rest)).length_le
    rw [List.length_cons, List.length_cons]
    exact Nat.succ_le_succ (ih.trans shorter)
  | case3 start c rest other ih => exact Nat.le_succ_of_le ih

private theorem Index.TrigramOptions.length_tokensOf_le (stop : Nat) (cs : List (Nat × Char)) :
    (Index.TrigramOptions.tokensOf stop cs).length ≤ cs.length := by
  fun_induction Index.TrigramOptions.tokensOf stop cs with
  | case1 i a j b k c rest ih => exact Nat.succ_le_succ ih
  | case2 => exact Nat.zero_le _

private theorem length_terms_le (tokenizer : Tokenizer) (text : List Char) :
    (tokenizer.terms text).length ≤ text.length := by
  have placed : ∀ cs : List Char, (Index.placed 0 cs).length = cs.length := fun cs => by
    rw [← List.length_map, Index.map_placed]
  rw [Tokenizer.terms, List.length_map]
  induction tokenizer with
  | words options => exact (Index.WordRule.length_tokensOf_le _ _).trans (Nat.le_of_eq (placed text))
  | asciiWords exceptions => exact (Index.WordRule.length_tokensOf_le _ _).trans (Nat.le_of_eq (placed text))
  | trigrams options =>
    calc (options.tokens text).length
      _ ≤ _ := Index.TrigramOptions.length_tokensOf_le _ _
      _ ≤ (Index.placed 0 (text.takeWhile (· ≠ '\x00'))).length := List.length_filterMap_le _ _
      _ = (text.takeWhile (· ≠ '\x00')).length := placed _
      _ ≤ text.length := (List.takeWhile_sublist _).length_le
  | stems base ih =>
    rw [Tokenizer.tokens, List.length_map]
    exact ih

theorem size_lt (tokenizer : Tokenizer) {r : Row} (short : ∀ text ∈ r.texts, text.length < 2 ^ 31) :
    (Document.ofTexts tokenizer r.texts).size < 2 ^ 40 := by
  have each : ∀ text ∈ r.texts, (tokenizer.terms text).length < 2 ^ 31 :=
    fun text member => Nat.lt_of_le_of_lt (length_terms_le tokenizer text) (short text member)
  simp only [Row.texts, List.forall_mem_cons, List.not_mem_nil, false_implies, implies_true, and_true] at each
  simp only [Document.size, Document.ofTexts, Row.texts, List.map_cons, List.map_nil,
    List.flatten_cons, List.flatten_nil, List.length_append, List.length_nil]
  omega

end Sizes

namespace Search

/-- What hits tell of rows apart from scores and excerpts. -/
def fields (h : Hit) : Nat × String × String × String :=
  (h.rowid, h.title, h.sourcePath, h.tag)

def rowFields (r : Row) : Nat × String × String × String :=
  (r.rowid, r.title, r.sourcePath, r.tag)

/-- Whether one of the texts of a row has a term. -/
def holds (term : Text.Utf8.Bytes) (r : Row) : Bool :=
  r.texts.any fun text => (Tokenizer.standard.terms text).contains term

section Ranked

variable {indexing : Indexing} (standard : indexing.tokenizer = .standard) {weights : List Float}
    {rows : List Row}
  (covers : indexing.Covers rows) (ordered : rows.Pairwise (·.rowid < ·.rowid))
    (moderate : Moderate weights)
  (few : rows.length < 2 ^ 63) (term : Text.Utf8.Bytes)
include standard covers ordered moderate few

private theorem scoreAmong_single {r : Row} (here : r ∈ rows)
    (short : ∀ text ∈ r.texts, text.length < 2 ^ 31) :
    if holds term r then ∃ x, scoreAmong indexing weights (Query.single term) r = some x ∧
    Binary64.isNaN x = false
    else scoreAmong indexing weights (Query.single term) r = none := by
  let d := Document.ofTexts indexing.tokenizer r.texts
  have score := scoreAmong_ofTerms covers ordered [term] weights here (rfl : d = _)
  have columns : (∃ column ∈ d.columns, Query.Occurs [term] column) ↔ holds term r = true := by
    simp [d, Document.ofTexts, holds, standard]
  obtain ⟨nowhere, few_places⟩ := Query.positions_eq_nil_iff [term] d
  split
  · rename_i held
    rw [if_pos (columns.mpr held)] at score
    have some_place : (Query.Phrase.ofTerms [term]).positions none d ≠ [] := by
      obtain ⟨column, member, occurs⟩ := columns.mpr held
      exact fun none_there => nowhere.mp none_there column member occurs
    have some_term : 0 < d.size := Nat.lt_of_lt_of_le (List.length_pos_iff.mpr some_place) few_places
    have documents :
      (Statistics.ofDocuments (rows.map fun r => Document.ofTexts indexing.tokenizer r.texts)
        (Query.ofTerms [term])).documents = rows.length := List.length_map _
    exact ⟨_, score,
      Index.Score.isNaN_score moderate (documents ▸ List.length_pos_of_mem here) (documents ▸ few)
      some_term (size_lt indexing.tokenizer short) (List.forall_mem_singleton.mpr ⟨some_place, few_places⟩)⟩
  · rename_i absent
    rwa [if_neg (mt columns.mp absent)] at score

private theorem row_ranked_single (short : ∀ r ∈ rows, ∀ text ∈ r.texts, text.length < 2 ^ 31) :
    (ranked indexing weights (Query.single term) rows).map (·.row) = rows.filter (holds term) := by
  rw [ranked, List.map_filterMap, ← List.filterMap_eq_filter]
  refine List.filterMap_congr fun r here => ?_
  have score := scoreAmong_single standard covers ordered moderate few term here (short r here)
  rw [scoreAmong] at score
  show ((matchOf indexing (Query.single term) r).map _).map _ = _
  split at score
  · rename_i held
    obtain ⟨x, value, -⟩ := score
    obtain ⟨m, found, -⟩ := Option.map_eq_some_iff.mp value
    simp [found, Option.guard, held]
  · rename_i absent
    simp [Option.map_eq_none_iff.mp score, Option.guard, absent]

private theorem exists_hit_single (short : ∀ r ∈ rows, ∀ text ∈ r.texts, text.length < 2 ^ 31)
    {r : Ranked} (member : r ∈ ranked indexing weights (Query.single term) rows) :
    ∃ h, hit indexing.tokenizer (Query.single term) r = .ok h := by
  obtain ⟨here, score⟩ := mem_ranked member
  refine exists_hit (fits_of_mem_ranked covers ordered [term] weights member) ?_
  have known := scoreAmong_single standard covers ordered moderate few term here (short _ here)
  split at known
  · obtain ⟨x, value, number⟩ := known
    rw [Option.some.inj (score.symm.trans value), number]
  · rw [known] at score
    cases score

private theorem best_single (short : ∀ r ∈ rows, ∀ text ∈ r.texts, text.length < 2 ^ 31)
    {limit : Nat} (all : rows.length ≤ limit) :
    ∃ hits, best indexing weights (Query.single term) rows limit = .ok hits ∧
      (hits.map fields).Perm ((rows.filter fun r => r.isLive && holds term r).map rowFields) := by
  have kept := row_ranked_single standard covers ordered moderate few term short
  have shown : ∀ r ∈ bestFirst indexing weights (Query.single term) rows,
      ∃ h, hit indexing.tokenizer (Query.single term) r = .ok h := fun r member =>
    exists_hit_single standard covers ordered moderate few term short (mem_bestFirst.mp member).1
  have first : (bestFirst indexing weights (Query.single term) rows).take limit =
      bestFirst indexing weights (Query.single term) rows :=
    List.take_of_length_le (length_bestFirst_le.trans all)
  obtain ⟨hits, ok⟩ := exists_mapM_ok shown
  refine ⟨hits, ?_, ?_⟩
  · show ((bestFirst indexing weights (Query.single term) rows).take limit).mapM _ = _
    rw [first, ok]
  · have stored : hits.map fields =
        ((bestFirst indexing weights (Query.single term) rows).map (·.row)).map rowFields := by
      have told := congrArg (List.map fun h : Nat × String × String × String × Float =>
        (h.1, h.2.1, h.2.2.1, h.2.2.2.1)) (shown_of_hits (mapM_ok_iff.mp ok))
      rw [List.map_map, List.map_map] at told
      rw [List.map_map]
      exact told
    have live : ((ranked indexing weights (Query.single term) rows).filter fun r => r.row.isLive).map (·.row) =
        rows.filter fun r => r.isLive && holds term r := by
      rw [← List.filter_filter, ← kept, List.filter_map]
      rfl
    rw [stored, ← live]
    exact (((List.mergeSort_perm _ _).filter _).map _).map _

end Ranked

/-- The names of collections that mean something else in the statement of a ranked search. -/
def otherMeanings : List String :=
  Store.Name.expressionWords ++ Store.Name.timeWords ++ [numberName]

end Search

section Database

variable {db : Database} {collection : String} {t : Table} {indexing : Indexing}

theorem searchAfter_bareword (found : db.find? collection = some (.table t))
    (kind : t.kind = .indexed indexing)
    (plain : Store.Name.isAmong Search.otherMeanings collection = false) {text : String}
    (word : IsBareword (Text.trim text.toList)) {topK : Nat} (positive : 1 ≤ topK) (opened : Nat) :
    (searchAfter opened db collection text topK).1 =
      (Search.best indexing ((indexing.rank.map Index.RankExpression.weights).getD [])
        (Query.ofTerms (indexing.tokenizer.terms (Text.trim text.toList))) t.rows
        (min topK Search.greatestLimit)).mapError .query := by
  obtain ⟨name, _, rows⟩ := t
  subst kind
  have apart : Store.Name.isAmong Store.Name.expressionWords collection = false ∧
      Store.Name.isAmong Store.Name.timeWords collection = false ∧
        Search.hidesNumbers collection = false := by
    simpa only [Store.Name.isAmong, Search.otherMeanings, List.any_append, Bool.or_eq_false_iff, List.any_cons,
      List.any_nil, Bool.or_false, and_assoc, Search.hidesNumbers] using plain
  have words : (Text.trim text.toList).isEmpty = false := by simpa using word.filled
  have some_asked : topK ≠ 0 := Nat.ne_of_gt positive
  rw [searchAfter_eq apart.2.2]
  simp only [Search.answer, some_asked, words, Search.rankCollection, apart, Bool.false_eq_true, if_false, found,
    word.expression]
  cases Search.best indexing _ _ rows _ <;> rfl

/-- A search for a word finds the live rows one of whose texts has it as a term, and shows each of
them once. -/
theorem search_word (found : db.find? collection = some (.table t))
    (kind : t.kind = .indexed indexing) (standard : indexing.tokenizer = .standard)
    (moderate : Moderate ((indexing.rank.map Index.RankExpression.weights).getD []))
    (inStep : t.InStep) (ordered : t.rows.Pairwise (·.rowid < ·.rowid))
    (plain : Store.Name.isAmong Search.otherMeanings collection = false)
    (few : t.rows.length < 2 ^ 63) (short : ∀ r ∈ t.rows, ∀ text ∈ r.texts, text.length < 2 ^ 31)
    {w : String} (word : IsWord w.toList) {topK : Nat} (positive : 1 ≤ topK)
    (all : t.rows.length ≤ topK) (opened : Nat) :
    ∃ hits, (searchAfter opened db collection w topK).1 = .ok hits ∧
      (hits.map Search.fields).Perm
        ((t.rows.filter fun r => r.isLive && Search.holds (Query.termOf w.toList) r).map Search.rowFields) := by
  have whole : t.rows.length ≤ min topK Search.greatestLimit := by
    unfold Search.greatestLimit
    omega
  obtain ⟨hits, ok, exactly⟩ := Search.best_single standard (inStep indexing kind) ordered moderate few
    (Query.termOf w.toList) short whole
  refine ⟨hits, ?_, exactly⟩
  have bare : IsBareword (Text.trim w.toList) := by
    rw [word.trim]
    exact word.isBareword
  rw [searchAfter_bareword found kind plain bare positive, word.trim, standard, word.terms]
  exact congrArg (Except.mapError SearchError.query) ok

end Database

end TextArchive
