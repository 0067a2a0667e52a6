import TextArchive.Proofs.Number.Overflow
import TextArchive.Proofs.Search.RankGrammar
import TextArchive.Proofs.Search.Words
import TextArchive.Proofs.Store.Arising

/-!
Which weights leave the score of every row a number. The score of a row for a word is undefined just
if the weights of the places of the word have a sum that is not finite. A score that is undefined
comes before all others, so that the search fails whatever number of hits is asked for.
-/

set_option autoImplicit false
set_option relaxedAutoImplicit false

namespace TextArchive

open TextArchive.Index (Document Position Statistics Tokenizer)
open TextArchive.Number
open TextArchive.Number.Binary64 (Spans isFinite isMild isNaN)
open TextArchive.Query (IsBareword Occurs Phrase ofTerms)
open TextArchive.Store (Database Indexing Row StoreError Table)

private theorem eq_of_mapM_error {α β ε : Type} {f : α → Except ε β} {l : List α} {e₀ e : ε}
    (one : ∀ a ∈ l, ∀ e, f a = .error e → e = e₀) (failed : l.mapM f = .error e) : e = e₀ := by
  induction l with
  | nil => cases failed
  | cons a l ih =>
    rw [List.mapM_cons] at failed
    cases first : f a with
    | error e' =>
      rw [first] at failed
      cases failed
      exact one a List.mem_cons_self e first
    | ok b =>
      cases rest : l.mapM f with
      | error e' =>
        simp only [first, rest, bind, Except.bind, Except.error.injEq] at failed
        exact ih (fun c member => one c (List.mem_cons_of_mem a member))
          (rest.trans (congrArg _ failed))
      | ok found =>
        simp only [first, rest, bind, Except.bind] at failed
        cases failed

namespace Index.Score

private theorem isFinite_frequency {weights : List Float} (mild : ∀ x ∈ weights, isMild x = true)
    (positions : List Position) :
    isFinite (frequency weights positions) = true := by
  have summed : ∀ (positions : List Position) (start : Float), isFinite start = true →
      isFinite (positions.foldl (fun sum p => sum + (weights[p.column]?).getD 1.0) start) = true := by
    intro positions
    induction positions with
    | nil => exact fun start finite => finite
    | cons p positions ih =>
      intro start finite
      refine ih _ (Binary64.isFinite_add finite ?_)
      cases stated : weights[p.column]? with
      | none => rfl
      | some x => exact mild x (List.mem_of_getElem? stated)
  exact summed positions 0.0 rfl

section Score

variable {s : Statistics} {size : Nat}

private theorem spans_damping (some_document : 0 < s.documents) (documents : s.documents < 2 ^ 63)
    (some_term : 0 < size) (bounded : size < 2 ^ 40) (some_terms : 0 < s.terms)
    (terms : s.terms < 2 ^ 110) :
    Spans (-54) 58 (1.2 * (0.25 + relativeLength s size)) := by
  have three_quarters : Spans (-53) (-53) 0.75 := ⟨_, _, _, rfl, by decide, by decide, by decide⟩
  have quarter : Spans (-54) 54 0.25 := ⟨_, _, _, rfl, by decide, by decide, by decide⟩
  have factor : Spans (-52) (-52) 1.2 := ⟨_, _, _, rfl, by decide, by decide, by decide⟩
  have length := three_quarters.mul (Binary64.spans_ofNat some_term bounded (by decide)) (by decide) (by decide)
  have average := (Binary64.spans_ofNat some_terms terms (by decide)).div
    (Binary64.spans_ofNat some_document documents (by decide)) (by decide) (by decide)
  have relative : Spans (-165) 54 (relativeLength s size) :=
    length.div average (by decide) (by decide)
  exact factor.mul (quarter.add relative (by decide) (by decide)) (by decide) (by decide)

private theorem isNaN_score_phrase {holding : Nat} (one : s.holding = [holding])
    (damping : Spans (-54) 58 (1.2 * (0.25 + relativeLength s size))) (weights : List Float)
      (positions : List Position) :
    isNaN (score weights s size [positions]) = !isFinite (frequency weights positions) := by
  have raised : Spans (-51) (-51) 2.2 := ⟨_, _, _, rfl, by decide, by decide, by decide⟩
  have minus : Binary64.unpacked (-1.0) = .finite .negative (2 ^ 52) (-52) (by decide) := rfl
  obtain ⟨m, e, positive, rare⟩ := isPositive_rarity s.documents holding
  have total : score weights s size [positions] =
      (0.0 + part (rarity s.documents holding) (frequency weights positions) (relativeLength s size)) * -1.0 := by
    rw [score, one]
    rfl
  rw [total, Binary64.isNaN_mul_finite _ minus, Binary64.isNaN_zero_add, part,
    Binary64.isNaN_finite_mul rare,
    Binary64.isNaN_saturation raised (by decide) damping (by decide) (by decide)]

end Score

end Index.Score

namespace Search

def placesOf (tokenizer : Tokenizer) (w : List Char) (r : Row) : List Position :=
  (Phrase.ofTerms (tokenizer.terms w)).positions none (Document.ofTexts tokenizer r.texts)

/-- The sum of the weights of the places of a word in a row, as the index reads the weights. -/
def frequencyOf (tokenizer : Tokenizer) (weights : Weights) (w : List Char) (r : Row) : Float :=
  Index.Score.frequency (Index.RankExpression.weights weights.expression) (placesOf tokenizer w r)

section Scores

variable {rows : List Row} (few : rows.length < 2 ^ 63)
    (short : ∀ r ∈ rows, ∀ text ∈ r.texts, text.length < 2 ^ 31)
include few short

private theorem terms_lt (tokenizer : Tokenizer) {e : Query.Expr} {r : Row} (here : r ∈ rows)
    (some_term : 0 < (Document.ofTexts tokenizer r.texts).size) :
    let s := Statistics.ofDocuments (rows.map fun r => Document.ofTexts tokenizer r.texts) e
    0 < s.terms ∧ s.terms < 2 ^ 110 := by
  intro s
  have terms : s.terms = (rows.map fun r => (Document.ofTexts tokenizer r.texts).size).sum := by
    rw [List.sum_eq_foldl, List.foldl_map]
    exact List.foldl_map
  have each : ∀ n ∈ rows.map fun r => (Document.ofTexts tokenizer r.texts).size, n ≤ 2 ^ 40 := by
    intro n member
    obtain ⟨r', there, rfl⟩ := List.mem_map.mp member
    exact Nat.le_of_lt (size_lt tokenizer (short r' there))
  have most := List.sum_le_card_nsmul _ _ each
  rw [List.length_map, smul_eq_mul] at most
  have least :=
    List.le_sum_of_mem
    (List.mem_map_of_mem (f := fun r => (Document.ofTexts tokenizer r.texts).size) here)
  rw [terms]
  omega

variable {indexing : Indexing} (covers : indexing.Covers rows)
    (ordered : rows.Pairwise (·.rowid < ·.rowid))
include covers ordered

private theorem scoreAmong_word (weights : Weights) (w : List Char) {r : Row} (here : r ∈ rows) :
    let score := scoreAmong indexing (Index.RankExpression.weights weights.expression)
      (ofTerms (indexing.tokenizer.terms w)) r
    (∀ x, score = some x → isNaN x = !isFinite (frequencyOf indexing.tokenizer weights w r)) ∧
      (isFinite (frequencyOf indexing.tokenizer weights w r) = false → score.isSome = true) := by
  intro score
  obtain ⟨terms, words⟩ : ∃ terms, terms = indexing.tokenizer.terms w := ⟨_, rfl⟩
  obtain ⟨d, made⟩ : ∃ d, d = Document.ofTexts indexing.tokenizer r.texts := ⟨_, rfl⟩
  have scored : score = _ := scoreAmong_ofTerms covers ordered (indexing.tokenizer.terms w) _ here made
  have places : placesOf indexing.tokenizer w r = (Phrase.ofTerms terms).positions none d := by
    rw [placesOf, words, made]
  obtain ⟨nowhere, few_places⟩ := Query.positions_eq_nil_iff terms d
  rw [← words] at scored
  rw [frequencyOf, places]
  constructor
  · intro x value
    rw [scored] at value
    split at value
    · rename_i matched
      cases value
      have some_place : (Phrase.ofTerms terms).positions none d ≠ [] := by
        intro none_there
        obtain ⟨column, member, inside⟩ := matched
        exact nowhere.mp none_there column member inside
      have some_term : 0 < d.size := Nat.lt_of_lt_of_le (List.length_pos_iff.mpr some_place) few_places
      obtain ⟨some_terms, all_terms⟩ := terms_lt few short indexing.tokenizer (e := ofTerms terms)
        here (made ▸ some_term)
      have count :
        (Statistics.ofDocuments (rows.map fun r => Document.ofTexts indexing.tokenizer r.texts)
          (ofTerms terms)).documents = rows.length := List.length_map _
      have damping := Index.Score.spans_damping (count ▸ List.length_pos_of_mem here) (count ▸ few) some_term
        (made ▸ size_lt indexing.tokenizer (short r here)) some_terms all_terms
      exact Index.Score.isNaN_score_phrase rfl damping _ _
    · cases value
  · intro infinite
    rw [scored]
    split
    · rfl
    · rename_i unmatched
      have none_there := nowhere.mpr fun column member inside => unmatched ⟨column, member, inside⟩
      rw [none_there, show Index.Score.frequency _ [] = 0.0 from rfl] at infinite
      exact Bool.noConfusion infinite

omit few short in
private theorem fits_best_word (weights : Weights) (w : List Char) {r : Ranked}
    (member : r ∈ bestFirst indexing (Index.RankExpression.weights weights.expression)
      (ofTerms (indexing.tokenizer.terms w)) rows) : r.fits indexing.tokenizer = true :=
  fits_of_mem_ranked covers ordered _ _ (mem_bestFirst.mp member).1

private theorem best_word_of_finite (weights : Weights) (w : List Char) (limit : Nat)
    (finite : ∀ r ∈ rows, r.isLive = true →
      isFinite (frequencyOf indexing.tokenizer weights w r) = true) :
    ∃ hits, best indexing (Index.RankExpression.weights weights.expression)
      (ofTerms (indexing.tokenizer.terms w)) rows limit = .ok hits ∧
      ∀ h ∈ hits, isNaN h.score = false := by
  have shown : ∀ r ∈ (bestFirst indexing (Index.RankExpression.weights weights.expression)
      (ofTerms (indexing.tokenizer.terms w)) rows).take limit,
      ∃ h, hit indexing.tokenizer (ofTerms (indexing.tokenizer.terms w)) r = .ok h := by
    intro r member
    have first := List.mem_of_mem_take member
    obtain ⟨ranked, live⟩ := mem_bestFirst.mp first
    obtain ⟨here, score⟩ := mem_ranked ranked
    refine exists_hit (fits_best_word covers ordered weights w first) ?_
    rw [(scoreAmong_word few short covers ordered weights w here).1 r.score score,
      finite r.row here live]
    rfl
  obtain ⟨hits, ok⟩ := exists_mapM_ok shown
  refine ⟨hits, ok, ?_⟩
  have each := (mapM_ok_iff.mp ok).flip.imp fun h r first =>
    (⟨by rw [(number_of_hit first).2]; exact (number_of_hit first).1,
      first⟩ : isNaN h.score = false ∧ _)
  exact ((List.forall₂_and_left _ _).mp each).1

private theorem best_word_of_infinite (weights : Weights) (w : List Char) {limit : Nat}
    (positive : 1 ≤ limit) {r : Row} (here : r ∈ rows) (live : r.isLive = true)
    (above : isFinite (frequencyOf indexing.tokenizer weights w r) = false) :
    best indexing (Index.RankExpression.weights weights.expression)
      (ofTerms (indexing.tokenizer.terms w)) rows limit = .error (.missingValue 5 "rank") := by
  have scored := fun r (here : r ∈ rows) => scoreAmong_word few short covers ordered weights w here
  obtain ⟨x, score⟩ := Option.isSome_iff_exists.mp ((scored r here).2 above)
  obtain ⟨a, ranked, rfl, rfl⟩ := exists_ranked here score
  cases answer : best indexing (Index.RankExpression.weights weights.expression)
      (ofTerms (indexing.tokenizer.terms w)) rows limit with
  | ok hits =>
    have number := numbers_of_best ordered positive answer a (mem_bestFirst.mpr ⟨ranked, live⟩)
    rw [(scored a.row here).1 a.score score, above] at number
    cases number
  | error e =>
    refine congrArg _ (eq_of_mapM_error (fun r member e failed => ?_) answer)
    rw [hit, fits_best_word covers ordered weights w (List.mem_of_mem_take member)] at failed
    simp only [Bool.not_true, Bool.false_eq_true, if_false] at failed
    split at failed
    · exact (Except.error.inj failed).symm
    · cases failed

end Scores

end Search

section Database

variable {db db' : Database} (arises : db.Arises) {collection : String} {t : Table}
    {indexing : Indexing}
  (found : db.find? collection = some (.table t)) (kind : t.kind = .indexed indexing)
  (plain : Store.Name.isAmong Search.otherMeanings collection = false)
    (few : t.rows.length < 2 ^ 63)
  (short : ∀ r ∈ t.rows, ∀ text ∈ r.texts, text.length < 2 ^ 31) (weights : Weights)
  (set : db.setRank collection weights.expression = .ok db') {text : String}
  (word : IsBareword (Text.trim text.toList)) {topK : Nat} (positive : 1 ≤ topK) (opened : Nat)
include arises found kind plain few short set word positive

private theorem search_ranked_word :
    let answer := (searchAfter opened db' collection text topK).1
    if ∀ r ∈ t.rows, r.isLive = true →
        isFinite (Search.frequencyOf indexing.tokenizer weights (Text.trim text.toList) r) = true then
      ∃ hits, answer = .ok hits ∧ ∀ h ∈ hits, isNaN h.score = false
    else answer = .error (.query (.missingValue 5 "rank")) := by
  intro answer
  obtain rfl := Database.eq_of_setRank set
  have ranked := arises.sound.find?_ranked found kind weights.expression
  obtain ⟨member, -⟩ := Database.mem_of_find? found
  have covers : (indexing.withRank weights.expression).Covers t.rows :=
    arises.inStep t member indexing kind
  have some_limit : 1 ≤ min topK Search.greatestLimit := Nat.le_min.mpr ⟨positive, by decide⟩
  have ordered := arises.ordered t member
  have answered := searchAfter_bareword ranked rfl plain word positive opened
  rw [Indexing.rank_withRank, Option.map_some, Option.getD_some] at answered
  split
  · rename_i finite
    obtain ⟨hits, ok, numbers⟩ :=
      Search.best_word_of_finite few short covers ordered weights _ _ finite
    rw [ok] at answered
    exact ⟨hits, answered, numbers⟩
  · rename_i infinite
    obtain ⟨r, here, live, above⟩ : ∃ r ∈ t.rows, r.isLive = true ∧
        isFinite (Search.frequencyOf indexing.tokenizer weights (Text.trim text.toList) r) = false := by
      simpa using infinite
    have failed := Search.best_word_of_infinite few short covers ordered weights
      (Text.trim text.toList) some_limit here live above
    rw [failed] at answered
    exact answered

/-- A search for a word in a collection with any weights succeeds if the weights of the places of
the word have a finite sum in each live row; otherwise it fails, as a score is no number. Mild
weights never let it fail. -/
theorem search_succeeds_on_finite_frequencies :
    let answer := (searchAfter opened db' collection text topK).1
    (if ∀ r ∈ t.rows, r.isLive = true →
        isFinite (Search.frequencyOf indexing.tokenizer weights (Text.trim text.toList) r) = true then
      ∃ hits, answer = .ok hits ∧ ∀ h ∈ hits, isNaN h.score = false
    else answer = .error (.query (.missingValue 5 "rank"))) ∧
    ((∀ x ∈ Index.RankExpression.weights weights.expression, isMild x = true) →
      ∃ hits, answer = .ok hits ∧ ∀ h ∈ hits, isNaN h.score = false) := by
  intro answer
  have decided := search_ranked_word arises found kind plain few short weights set word positive opened
  refine ⟨decided, fun mild => ?_⟩
  have finite : ∀ r ∈ t.rows, r.isLive = true →
      isFinite (Search.frequencyOf indexing.tokenizer weights (Text.trim text.toList) r) = true :=
    fun r _ _ => Index.Score.isFinite_frequency mild _
  rw [if_pos finite] at decided
  exact decided

end Database

/-- Weights of opposite signs, close to the greatest ones, and a word that is found once under each
of them. -/
theorem search_succeeds_on_opposite_weights :
    let db := Database.ofRecords "documents" [⟨"word", "word", "", "", none⟩]
    let weights : Weights := ⟨1e308, -1e308, 1.0, 1.0⟩
    db.Arises ∧ ∃ db', db.setRank "documents" weights.expression = .ok db' ∧
      ∃ hits, (searchAfter 0 db' "documents" "word" 1).1 = .ok hits ∧ ∀ h ∈ hits,
        isNaN h.score = false := by
  intro db weights
  let rows := Row.numberedFrom 1 [⟨"word", "word", "", "", none⟩]
  let t : Table := ⟨"documents", .indexed (Database.indexingOf rows), rows⟩
  have arises : db.Arises := Database.arises_ofRecords (by decide +kernel) _
  have found : db.find? "documents" = some (.table t) := Database.find?_ofRecords _ _
  have there : db.IsCollection "documents" := ⟨t, _, found, rfl⟩
  have plain : Store.Name.isAmong Search.otherMeanings "documents" = false := by decide +kernel
  have few : t.rows.length < 2 ^ 63 := by decide
  have short : ∀ r ∈ t.rows, ∀ text ∈ r.texts, text.length < 2 ^ 31 := by decide
  have word : IsBareword (Text.trim "word".toList) :=
    (show Query.IsWord _ by decide +kernel).isBareword
  have accepted : weights.allFinite = true := by decide +kernel
  have finite : ∀ r ∈ t.rows, r.isLive = true →
      isFinite
        (Search.frequencyOf (Database.indexingOf rows).tokenizer weights (Text.trim "word".toList) r) = true := by
    unfold Search.frequencyOf
    rw [Index.RankExpression.weights_expression accepted]
    decide +kernel
  obtain ⟨searched, -⟩ := search_succeeds_on_finite_frequencies arises found rfl plain few short weights
    (there.setRank_of_finite accepted) word (Nat.le_refl 1) 0
  rw [if_pos finite] at searched
  exact ⟨arises, _, there.setRank_of_finite accepted, searched⟩

/-- A word that occurs twice under the greatest weight. -/
theorem search_fails_on_greatest_weight :
    let db := Database.ofRecords "documents" [⟨"word word", "", "", "", none⟩]
    let weights : Weights := ⟨1.7976931348623157e308, 1.0, 1.0, 1.0⟩
    weights.allFinite = true ∧ db.Arises ∧ ∃ db', db.setRank "documents" weights.expression = .ok db' ∧
      (searchAfter 0 db' "documents" "word" 1).1 = .error (.query (.missingValue 5 "rank")) := by
  intro db weights
  let rows := Row.numberedFrom 1 [⟨"word word", "", "", "", none⟩]
  let t : Table := ⟨"documents", .indexed (Database.indexingOf rows), rows⟩
  have arises : db.Arises := Database.arises_ofRecords (by decide +kernel) _
  have found : db.find? "documents" = some (.table t) := Database.find?_ofRecords _ _
  have there : db.IsCollection "documents" := ⟨t, _, found, rfl⟩
  have plain : Store.Name.isAmong Search.otherMeanings "documents" = false := by decide +kernel
  have few : t.rows.length < 2 ^ 63 := by decide
  have short : ∀ r ∈ t.rows, ∀ text ∈ r.texts, text.length < 2 ^ 31 := by decide
  have word : IsBareword (Text.trim "word".toList) :=
    (show Query.IsWord _ by decide +kernel).isBareword
  have accepted : weights.allFinite = true := by decide +kernel
  have infinite : ¬ ∀ r ∈ t.rows, r.isLive = true →
      isFinite
        (Search.frequencyOf (Database.indexingOf rows).tokenizer weights (Text.trim "word".toList) r) = true := by
    unfold Search.frequencyOf
    rw [Index.RankExpression.weights_expression accepted]
    decide +kernel
  have failed := search_ranked_word arises found rfl plain few short weights
    (there.setRank_of_finite accepted) word (Nat.le_refl 1) 0
  rw [if_neg infinite] at failed
  exact ⟨accepted, arises, _, there.setRank_of_finite accepted, failed⟩

end TextArchive
