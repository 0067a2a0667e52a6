import Mathlib.Data.List.Infix
import TextArchive.Proofs.Query.Cursor
import TextArchive.Query.Parser

/-!
Where the terms of a phrase occur. A query of one phrase, whatever its terms are, matches a document
just if they stand one after the other somewhere in a column, and each of the places that are found
is in such a column.
-/

set_option autoImplicit false
set_option relaxedAutoImplicit false

namespace TextArchive.Query

open TextArchive.Index (Document Position)
open TextArchive.Text.Utf8 (Bytes)

def Phrase.ofTerms (terms : List Bytes) : Phrase :=
  ⟨terms.map (Term.mk · false), false⟩

def Group.ofTerms (terms : List Bytes) : Group :=
  ⟨[.ofTerms terms], Parser.standardDistance, none, false⟩

def ofTerms (terms : List Bytes) : Expr :=
  .group (.ofTerms terms)

/-- Whether there are terms at all, which stand one after the other somewhere among some words. -/
def Occurs (terms words : List Bytes) : Prop :=
  terms ≠ [] ∧ terms <:+: words

instance (terms words : List Bytes) : Decidable (Occurs terms words) :=
  inferInstanceAs (Decidable (_ ∧ _))

private theorem not_occurs_nil (words : List Bytes) : ¬ Occurs [] words :=
  fun occurs => occurs.1 rfl

@[simp] theorem occurs_singleton {term : Bytes} {words : List Bytes} :
    Occurs [term] words ↔ term ∈ words := by
  constructor
  · intro occurs
    exact occurs.2.subset List.mem_cons_self
  · intro inside
    obtain ⟨before, after, rfl⟩ := List.append_of_mem inside
    exact ⟨List.cons_ne_nil _ _, before, after, by simp⟩

section Phrase

variable (terms : List Bytes)

private theorem allHold_iff_prefix (words : List Bytes) :
    Term.allHold (terms.map (Term.mk · false)) words = true ↔ terms <+: words := by
  induction terms generalizing words with
  | nil => simp [Term.allHold]
  | cons term terms ih =>
    cases words with
    | nil => simp [Term.allHold]
    | cons word words =>
      rw [List.map_cons, Term.allHold, Bool.and_eq_true, ih, List.cons_prefix_cons]
      simp [Term.holds]

private theorem starts_ofTerms (filled : terms ≠ []) (words : List Bytes) (offset : Nat) :
    let starts := (Phrase.ofTerms terms).starts offset words
    (starts = [] ↔ ¬ Occurs terms words) ∧ starts.length ≤ words.length := by
  induction words generalizing offset with
  | nil =>
    have nowhere : ¬ Occurs terms [] := fun occurs => filled (List.eq_nil_of_infix_nil occurs.2)
    simp [Phrase.starts, nowhere]
  | cons word words ih =>
    obtain ⟨later, length⟩ := ih (offset + 1)
    have here : Term.allHold (Phrase.ofTerms terms).terms (word :: words) = true ↔
      terms <+: word :: words :=
      allHold_iff_prefix terms (word :: words)
    have somewhere : Occurs terms (word :: words) ↔ terms <+: word :: words ∨
      Occurs terms words := by
      simp [Occurs, filled, List.infix_cons_iff]
    have leading : (Phrase.ofTerms terms).leading = false := rfl
    simp only [Phrase.starts, leading, Bool.false_eq_true, if_false]
    split
    · rename_i found
      refine ⟨?_, Nat.succ_le_succ length⟩
      have first := somewhere.mpr (.inl (here.mp found))
      simp [first]
    · rename_i absent
      refine ⟨?_, Nat.le_succ_of_le length⟩
      rw [later, somewhere, not_or]
      exact (and_iff_right (mt here.mpr absent)).symm

private theorem lt_of_mem_starts (p : Phrase) {words : List Bytes} {offset n : Nat}
    (start : n ∈ p.starts offset words) :
    n < offset + words.length := by
  induction words generalizing offset with
  | nil => cases start
  | cons word words ih =>
    have later : n ∈ (if p.leading then [] else p.starts (offset + 1) words) →
      n < offset + (words.length + 1) := by
      intro member
      split at member
      · cases member
      · have := ih member
        omega
    rw [Phrase.starts] at start
    split at start
    · rcases List.mem_cons.mp start with rfl | member
      · exact Nat.lt_add_of_pos_right (Nat.succ_pos _)
      · exact later member
    · exact later start

variable (d : Document)

private theorem admitted_none : admitted none d = d.columns.zipIdx.map fun c => (c.2, c.1) :=
  List.filter_eq_self.mpr fun _ _ => rfl

private theorem map_admitted : (admitted none d).map (·.2) = d.columns := by
  rw [admitted_none, List.map_map]
  exact List.zipIdx_map_fst 0 d.columns

private theorem mem_admitted {c : Nat × List Bytes} (member : c ∈ admitted none d) :
    d.columns[c.1]? = some c.2 := by
  rw [admitted_none] at member
  obtain ⟨p, inside, rfl⟩ := List.mem_map.mp member
  exact List.mem_zipIdx_iff_getElem?.mp inside

private theorem positions_ofTerms (filled : terms ≠ []) : (Phrase.ofTerms terms).positions none d =
    (admitted none d).flatMap fun c =>
    ((Phrase.ofTerms terms).starts 0 c.2).map fun offset => ⟨c.1, offset⟩ := by
  have some_term : (Phrase.ofTerms terms).terms.isEmpty = false := by
    simpa [Phrase.ofTerms] using filled
  simp only [Phrase.positions, some_term, Bool.false_eq_true, if_false]

theorem positions_eq_nil_iff :
    let positions := (Phrase.ofTerms terms).positions none d
    (positions = [] ↔ ∀ column ∈ d.columns, ¬ Occurs terms column) ∧ positions.length ≤ d.size := by
  rcases List.eq_nil_or_concat terms with rfl | filled
  · simp [Phrase.positions, Phrase.ofTerms, not_occurs_nil]
  replace filled : terms ≠ [] := by
    obtain ⟨before, last, rfl⟩ := filled
    simp
  intro positions
  have each : positions = _ := positions_ofTerms terms d filled
  constructor
  · rw [each, ← map_admitted d, List.flatMap_eq_nil_iff, List.forall_mem_map]
    refine forall_congr' fun c => imp_congr_right fun _ => ?_
    rw [List.map_eq_nil_iff, (starts_ofTerms terms filled c.2 0).1]
  · rw [each, Document.size, ← map_admitted d]
    induction admitted none d with
    | nil => exact Nat.le_refl _
    | cons c columns ih =>
      have here := (starts_ofTerms terms filled c.2 0).2
      rw [List.flatMap_cons, List.map_cons, List.flatten_cons, List.length_append,
        List.length_append, List.length_map]
      exact Nat.add_le_add here ih

theorem occurs_of_mem_positions {p : Position}
    (member : p ∈ (Phrase.ofTerms terms).positions none d) :
    ∃ column, d.columns[p.column]? = some column ∧ Occurs terms column ∧
    p.offset < column.length := by
  have filled : terms ≠ [] := by
    rintro rfl
    simp [Phrase.positions, Phrase.ofTerms] at member
  rw [positions_ofTerms terms d filled] at member
  obtain ⟨c, admitted, inside⟩ := List.mem_flatMap.mp member
  obtain ⟨offset, start, rfl⟩ := List.mem_map.mp inside
  refine ⟨c.2, mem_admitted d admitted, ?_, by simpa using lt_of_mem_starts _ start⟩
  by_contra absent
  rw [(starts_ofTerms terms filled c.2 0).1.mpr absent] at start
  cases start

private theorem occurs_iff_mem (term : Bytes) :
    Term.occurs ⟨term, false⟩ none d = true ↔ ∃ column ∈ d.columns, term ∈ column := by
  rw [← map_admitted d]
  simp only [Term.occurs, Bool.false_eq_true, if_false, List.any_eq_true, Term.holds, beq_iff_eq,
    List.mem_map]
  constructor
  · rintro ⟨c, member, _, inside, rfl⟩
    exact ⟨c.2, ⟨c, member, rfl⟩, inside⟩
  · rintro ⟨_, ⟨c, member, rfl⟩, inside⟩
    exact ⟨c, member, term, inside, rfl⟩

/-- A phrase matches a document just if it occurs in a column, and its places there are found. -/
theorem match?_ofTerms : (Group.ofTerms terms).match? d =
    if ∃ column ∈ d.columns, Occurs terms column then some
    [(Phrase.ofTerms terms).positions none d] else none := by
  have nowhere := (positions_eq_nil_iff terms d).1
  generalize places : (Phrase.ofTerms terms).positions none d = positions at nowhere ⊢
  have met : (Group.ofTerms terms).find? d =
      if (Phrase.ofTerms terms).terms.isEmpty || !terms.all
        (Term.occurs ⟨·, false⟩ none d) then none
      else some ⟨!positions.isEmpty, [positions]⟩ := by
    have each : (Phrase.ofTerms terms).terms.all (·.occurs none d) = terms.all (Term.occurs ⟨·,
      false⟩ none d) := by
      simp only [Phrase.ofTerms, List.all_map, Function.comp_def]
    simp only [Group.ofTerms, Group.find?, Group.isEmpty, List.any_cons, List.any_nil,
      List.all_cons, List.all_nil, List.map_cons, List.map_nil, Bool.or_false, Bool.and_true, each,
      places]
  rw [Group.match?, met]
  by_cases held : ∃ column ∈ d.columns, Occurs terms column
  · obtain ⟨column, member, filled, inside⟩ := held
    have all : terms.all (Term.occurs ⟨·, false⟩ none d) = true :=
      List.all_eq_true.mpr fun term some_term => (occurs_iff_mem d term).mpr ⟨column, member,
        inside.subset some_term⟩
    have some_place : positions ≠ [] := fun none_there =>
      nowhere.mp none_there column member ⟨filled, inside⟩
    have some_term : (Phrase.ofTerms terms).terms.isEmpty = false := by
      simpa [Phrase.ofTerms] using filled
    have occurs : ∃ column ∈ d.columns, Occurs terms column := ⟨column, member, filled, inside⟩
    simp [all, some_term, some_place, occurs]
  · have none_there : positions = [] := nowhere.mpr fun column member occurs =>
      held ⟨column, member, occurs⟩
    rw [none_there, if_neg held]
    cases (Phrase.ofTerms terms).terms.isEmpty || !terms.all (Term.occurs ⟨·, false⟩ none d) <;> rfl

end Phrase

end TextArchive.Query
