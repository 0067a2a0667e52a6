import Mathlib.Data.List.Basic
import TextArchive.Query.Cursor

/-!
What a query of a single phrase finds. Its cursor passes over the documents at which the phrase is
met, one after the other, and at those that it matches the places read off are the ones found there.
-/

set_option autoImplicit false
set_option relaxedAutoImplicit false

namespace TextArchive.Query

open TextArchive.Index (Document Position)

/-- The places of the phrases of a group in a document that it matches. -/
def Group.match? (g : Group) (d : Document) : Option (List (List Position)) :=
  (g.find? d).bind fun found => if found.matched then some found.places else none

def Stop.match? (s : Stop) : Option (Nat × List (List Position)) :=
  if s.found.matched then some (s.number, s.found.places) else none

section Passing

variable (g : Group) (rounds : Nat)

private theorem seek_next {kept : List (List Position)} {s : Stop} {ahead : List Stop}
    (later : ∀ s' ∈ ahead, s.number < s'.number) (standing : Standing) :
    (Expr.seek rounds standing (.group g) (s.number + 1) (.group kept (s :: ahead))).2 =
    Cursor.arrive kept ahead := by
  have stays : ahead.dropWhile (·.number < s.number + 1) = ahead := by
    cases ahead with
    | nil => rfl
    | cons s' ahead =>
      have beyond := later s' List.mem_cons_self
      rw [List.dropWhile_cons_of_neg (by simpa [Nat.lt_succ_iff] using beyond)]
  simp only [Expr.seek, List.head?_cons, Option.any_some, Nat.lt_succ_self, decide_true, if_true,
    List.dropWhile_cons, stays]

private theorem findFrom_arrive {n : Nat} {ahead : List Stop} (enough : ahead.length ≤ n)
    (ordered : ahead.Pairwise (·.number < ·.number)) {kept : List (List Position)}
    (all : ∀ s ∈ ahead, s.found.places.length = kept.length) :
    Expr.findFrom (.group g) rounds n (Cursor.arrive kept ahead) = ahead.filterMap Stop.match? := by
  induction ahead generalizing n kept with
  | nil => cases n <;> rfl
  | cons s ahead ih =>
    obtain ⟨n, rfl⟩ :=
      Nat.exists_eq_add_of_le' (Nat.le_trans (Nat.le_add_left 1 ahead.length) enough)
    obtain ⟨later, ordered⟩ := List.pairwise_cons.mp ordered
    have here := all s List.mem_cons_self
    have replaced : Cursor.arrive kept (s :: ahead) = .group s.found.places (s :: ahead) := by
      rw [Cursor.arrive, here, List.drop_length, List.append_nil]
    have rest : Expr.findFrom (.group g) rounds n (Cursor.arrive s.found.places ahead)
      = ahead.filterMap Stop.match? :=
      ih (Nat.le_of_succ_le_succ enough) ordered fun s' member =>
        (all s' (List.mem_cons_of_mem s member)).trans here.symm
    rw [replaced]
    simp only [Expr.findFrom, Cursor.now?, List.head?_cons, Option.map_some,
      seek_next g rounds later, rest, Cursor.placesAt, if_true, List.filterMap_cons, Stop.match?]
    cases s.found.matched <;> rfl

end Passing

private theorem pairwise_stops (g : Group) (documents : List Document) :
    (g.stops documents).Pairwise (·.number < ·.number) := by
  refine List.Pairwise.filterMap _ (R := fun p q : Document × Nat => p.2 < q.2) ?_ ?_
  · intro p q before s first s' second
    obtain ⟨_, -, rfl⟩ := Option.map_eq_some_iff.mp first
    obtain ⟨_, -, rfl⟩ := Option.map_eq_some_iff.mp second
    exact before
  · have numbers : (documents.zipIdx.map (·.2)).Pairwise (· < ·) := by
      rw [List.zipIdx_map_snd]
      exact List.pairwise_lt_range' ..
    exact List.pairwise_map.mp numbers

/-- A query of one phrase finds the documents that it matches. -/
theorem findIn_of_single {g : Group} {p : Phrase} (single : g.phrases = [p])
    (documents : List Document) :
    (Expr.group g).findIn documents =
      documents.zipIdx.filterMap fun d => (g.match? d.1).map fun places => (d.2, places) := by
  have few : (g.stops documents).length ≤ documents.length + 1 := by
    refine Nat.le_trans (List.length_filterMap_le _ _) ?_
    rw [List.length_zipIdx]
    exact Nat.le_succ _
  have whole : ∀ s ∈ g.stops documents, s.found.places.length
    = (g.phrases.map fun _ => ([] : List Position)).length := by
    intro s member
    obtain ⟨d, -, stop⟩ := List.mem_filterMap.mp member
    obtain ⟨found, met, rfl⟩ := Option.map_eq_some_iff.mp stop
    simp only [Group.find?, single, List.map_cons, List.map_nil] at met
    split at met
    · cases met
    · cases met
      rw [single]
      rfl
  rw [Expr.findIn, Expr.start,
    findFrom_arrive g _ few (pairwise_stops g documents) whole, Group.stops,
    List.filterMap_filterMap]
  refine List.filterMap_congr fun d _ => ?_
  rw [Group.match?]
  rcases g.find? d.1 with _ | ⟨matched, places⟩
  · rfl
  · cases matched <;> rfl

end TextArchive.Query
