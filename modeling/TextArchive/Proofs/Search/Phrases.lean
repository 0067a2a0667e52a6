import TextArchive.Proofs.Query.Occurrence
import TextArchive.Proofs.Search.Ranking

/-!
What an index finds for a query of one phrase. If the index says what the rows hold, it finds the
rows that have the terms of the phrase one after the other in one of their texts, at the places
where they stand there.
-/

set_option autoImplicit false
set_option relaxedAutoImplicit false

namespace TextArchive.Search

open TextArchive.Index (Document Position Statistics Tokenizer)
open TextArchive.Query (Expr Group Occurs Phrase ofTerms)
open TextArchive.Store (Entry Indexing Row)
open TextArchive.Text.Utf8 (Bytes)

private theorem find?_filterMap_of_ordered {rows : List Row}
    (ordered : rows.Pairwise (·.rowid < ·.rowid))
    {f : Row → Option Match} (numbered : ∀ r m, f r = some m →
    m.number = r.rowid) {r : Row} (here : r ∈ rows) :
    (rows.filterMap f).find? (·.number = r.rowid) = f r := by
  induction rows with
  | nil => cases here
  | cons first rows ih =>
    obtain ⟨above, ordered⟩ := List.pairwise_cons.mp ordered
    rcases List.mem_cons.mp here with rfl | later
    · cases made : f r with
      | some m => simp [made, numbered r m made]
      | none =>
        rw [List.filterMap_cons_none made, List.find?_eq_none]
        intro m member
        obtain ⟨other, there, from_other⟩ := List.mem_filterMap.mp member
        have greater := above other there
        rw [← numbered other m from_other] at greater
        simpa using Nat.ne_of_gt greater
    · cases made : f first with
      | none => rw [List.filterMap_cons_none made, ih ordered later]
      | some m =>
        have other : m.number ≠ r.rowid := numbered first m made ▸ Nat.ne_of_lt (above r later)
        rw [List.filterMap_cons_some made,
          List.find?_cons_of_neg (by simpa using other), ih ordered later]

private theorem matching_of_single {g : Group} {p : Phrase} (single : g.phrases = [p])
    (entries : List Entry) :
    matching (.group g) entries = entries.filterMap fun entry =>
      (g.match? entry.document).map (⟨entry.number, entry.document.size, ·⟩) := by
  have placed : (entries.map (·.document)).zipIdx = entries.zipIdx.map fun e =>
    (e.1.document, e.2) :=
    List.zipIdx_map ..
  rw [matching, Query.findIn_of_single single, placed, List.filterMap_filterMap, List.filterMap_map]
  conv_rhs => rw [← List.zipIdx_map_fst 0 entries, List.filterMap_map]
  refine List.filterMap_congr fun e member => ?_
  have there : entries[e.2]? = some e.1 := List.mem_zipIdx_iff_getElem?.mp member
  simp only [Function.comp_apply]
  cases g.match? e.1.document with
  | none => rfl
  | some places => simp [there]

section InStep

variable {indexing : Indexing} {rows : List Row} (covers : indexing.Covers rows)
  (ordered : rows.Pairwise (·.rowid < ·.rowid)) (terms : List Bytes)
include covers

private theorem statistics_of_covers (e : Expr) : statistics indexing e =
    .ofDocuments (rows.map fun r => Document.ofTexts indexing.tokenizer r.texts) e := by
  rw [statistics, covers, List.map_map]
  rfl

include ordered

/-- An index finds a phrase in a row if it occurs in one of the texts, at all its places there. -/
theorem matchOf_ofTerms {r : Row} (here : r ∈ rows) {d : Document}
    (made : d = Document.ofTexts indexing.tokenizer r.texts) : matchOf indexing (ofTerms terms) r =
      if ∃ column ∈ d.columns, Occurs terms column then
        some ⟨r.rowid, d.size, [(Phrase.ofTerms terms).positions none d]⟩
      else none := by
  subst made
  have each : ∀ r m,
    (fun r : Row => ((Group.ofTerms terms).match? (Document.ofTexts indexing.tokenizer r.texts)).map
      fun places =>
        Match.mk r.rowid (Document.ofTexts indexing.tokenizer r.texts).size places) r = some m →
      m.number = r.rowid := by
    intro r m made
    obtain ⟨places, -, rfl⟩ := Option.map_eq_some_iff.mp made
    rfl
  rw [matchOf, ofTerms, matching_of_single rfl, covers, List.filterMap_map]
  refine (find?_filterMap_of_ordered ordered each here).trans ?_
  show ((Group.ofTerms terms).match? _).map _ = _
  rw [Query.match?_ofTerms]
  split <;> rfl

variable (weights : List Float)

theorem scoreAmong_ofTerms {r : Row} (here : r ∈ rows) {d : Document}
    (made : d = Document.ofTexts indexing.tokenizer r.texts) :
    scoreAmong indexing weights (ofTerms terms) r =
      if ∃ column ∈ d.columns, Occurs terms column then
        some (Index.Score.score weights
          (.ofDocuments (rows.map fun r => Document.ofTexts indexing.tokenizer r.texts) (ofTerms terms)) d.size
          [(Phrase.ofTerms terms).positions none d])
      else none := by
  rw [scoreAmong, matchOf_ofTerms covers ordered terms here made, statistics_of_covers covers]
  split <;> rfl

theorem fits_of_mem_ranked {a : Ranked}
    (member : a ∈ ranked indexing weights (ofTerms terms) rows) :
    a.fits indexing.tokenizer = true := by
  obtain ⟨r, here, made⟩ := List.mem_filterMap.mp member
  obtain ⟨m, found, rfl⟩ := Option.map_eq_some_iff.mp made
  replace found : matchOf indexing (ofTerms terms) r = some m := found
  rw [matchOf_ofTerms covers ordered terms here rfl] at found
  split at found
  · cases found
    simp only [Ranked.fits, List.flatten_cons, List.flatten_nil, List.append_nil, List.all_eq_true,
      Bool.or_eq_true, decide_eq_true_eq]
    intro p place
    refine Decidable.or_iff_not_imp_left.mpr fun excerpted => ?_
    obtain ⟨column, stands, -, less⟩ := Query.occurs_of_mem_positions terms _ place
    rw [Decidable.not_not.mp excerpted] at stands
    cases stands
    rw [Tokenizer.terms, List.length_map] at less
    exact Nat.le_of_lt less
  · cases found

end InStep

theorem exists_hit {tokenizer : Tokenizer} {e : Expr} {r : Ranked} (fits : r.fits tokenizer = true)
    (number : Number.Binary64.isNaN r.score = false) : ∃ h, hit tokenizer e r = .ok h := by
  simp [hit, fits, number]

end TextArchive.Search
