import Mathlib.Data.List.Sort
import TextArchive.Proofs.Store.History

/-!
What searches return. There is one list of all live rows that a text matches, best first and rows of
equal scores in the order of their numbers; the hits of a search are the beginning of this list, as
long as asked for.
-/

set_option autoImplicit false
set_option relaxedAutoImplicit false

namespace TextArchive

open TextArchive.Index (Tokenizer)
open TextArchive.Number
open TextArchive.Query (Expr)
open TextArchive.Store (Database Indexing Row StoreError Table)

section Lists

variable {α β ε : Type} {f : α → Except ε β}

theorem mapM_ok_iff {l : List α} {found : List β} :
    l.mapM f = .ok found ↔ List.Forall₂ (fun a b => f a = .ok b) l found := by
  induction l generalizing found with
  | nil => cases found <;> simp [pure, Except.pure]
  | cons a l ih =>
    rw [List.mapM_cons]
    cases first : f a with
    | error e => cases found <;> simp [first, bind, Except.bind]
    | ok b =>
      cases rest : l.mapM f with
      | error e => cases found <;> simp [first, ← ih, rest, bind, Except.bind]
      | ok others => cases found <;> simp [first, ← ih, rest, bind, Except.bind, pure, Except.pure]

private theorem pairwise_mergeSort_stable {le : α → α → Bool} {before : α → α → Prop}
    (trans : ∀ a b c, le a b = true → le b c = true → le a c = true)
    (total : ∀ a b, (le a b || le b a) = true) {l : List α} (ordered : l.Pairwise before) :
    (l.mergeSort le).Pairwise fun a b => le a b = true ∧ (le b a = true → before a b) := by
  rw [List.pairwise_iff_forall_sublist]
  intro a b sublist
  have sorted := List.pairwise_iff_forall_sublist.mp (List.pairwise_mergeSort trans total l) sublist
  refine ⟨sorted, fun tie => ?_⟩
  let ties : α → Bool := fun x => le a x && le x a
  have level : (l.filter ties).Pairwise fun x y => le x y = true := by
    refine List.pairwise_of_forall_mem_list fun x x_mem y y_mem => ?_
    have x_ties := (List.mem_filter.mp x_mem).2
    have y_ties := (List.mem_filter.mp y_mem).2
    simp only [ties, Bool.and_eq_true] at x_ties y_ties
    exact trans x a y x_ties.2 y_ties.1
  have kept : (l.filter ties).Sublist ((l.mergeSort le).filter ties) := by
    have inside := (List.sublist_mergeSort trans total level List.filter_sublist).filter ties
    simpa using inside
  have lengths : (l.filter ties).length = ((l.mergeSort le).filter ties).length :=
    ((List.mergeSort_perm l le).filter ties).length_eq.symm
  have same : l.filter ties = (l.mergeSort le).filter ties := kept.eq_of_length lengths
  have itself : le a a = true := by simpa using total a a
  have pair : [a, b].Sublist ((l.mergeSort le).filter ties) := by
    have filtered := sublist.filter ties
    simpa [ties, itself, sorted, tie] using filtered
  rw [← same] at pair
  exact List.pairwise_iff_forall_sublist.mp ordered (pair.trans List.filter_sublist)

end Lists

/-- A table whose rows are kept in the order of their numbers, which are positive and have
sixty-four bits with a sign. -/
structure Store.Table.Keyed (t : Table) : Prop where
  ordered : t.rows.Pairwise (·.rowid < ·.rowid)
  positive : ∀ r ∈ t.rows, 1 ≤ r.rowid
  bounded : ∀ r ∈ t.rows, r.rowid < 2 ^ 63

theorem Store.Table.Keyed.length_le {t : Table} (keyed : t.Keyed) :
    t.rows.length ≤ Search.greatestLimit := by
  have distinct : (t.rows.map (·.rowid)).Nodup :=
    List.pairwise_map.mpr (keyed.ordered.imp Nat.ne_of_lt)
  have inside : t.rows.map (·.rowid) ⊆ List.range' 1 Search.greatestLimit := by
    intro n member
    obtain ⟨r, here, rfl⟩ := List.mem_map.mp member
    have low := keyed.positive r here
    have high := keyed.bounded r here
    rw [List.mem_range'_1]
    unfold Search.greatestLimit
    omega
  have lengths := (List.subperm_of_subset distinct inside).length_le
  rwa [List.length_map, List.length_range'] at lengths

theorem Store.Table.keyed_of_rows {t : Table} {records : List Record}
    (rows : t.rows = Row.numberedFrom 1 records)
    (bounded : records.length < 2 ^ 63) : t.Keyed where
  ordered := by
    rw [rows, List.pairwise_iff_getElem]
    intro i j _ _ less
    simpa [Row.numberedFrom, Row.ofRecord] using less
  positive := by
    intro r member
    rw [rows] at member
    obtain ⟨n, _, rfl⟩ := List.mem_mapIdx.mp member
    exact Nat.le_add_right 1 n
  bounded := by
    intro r member
    rw [rows] at member
    obtain ⟨n, inside, rfl⟩ := List.mem_mapIdx.mp member
    show 1 + n < 2 ^ 63
    omega

namespace Search

/-- What an index has of a row that matches an expression. -/
def matchOf (indexing : Indexing) (e : Expr) (r : Row) : Option Match :=
  (matching e indexing.entries).find? (·.number = r.rowid)

/-- The score of a row for an expression, measured against all that is indexed, if the row
matches. -/
def scoreAmong (indexing : Indexing) (weights : List Float) (e : Expr) (r : Row) : Option Float :=
  (matchOf indexing e r).map fun m =>
    Index.Score.score weights (statistics indexing e) m.size m.positions

/-- The score of a row for a text, if the row matches. A blank text is matched by every row. -/
def scoreOf (indexing : Indexing) (text : String) (r : Row) : Option Float :=
  let text := Text.trim text.toList
  if text.isEmpty then some 0.0
  else
    match expression indexing.tokenizer text with
    | .error _ => none
    | .ok e => scoreAmong indexing ((indexing.rank.map Index.RankExpression.weights).getD []) e r

/-- Whether a row with its score stands before another one. -/
def Precedes (a b : Row × Float) : Prop :=
  Binary64.orderKey a.2 < Binary64.orderKey b.2 ∨
    Binary64.orderKey a.2 = Binary64.orderKey b.2 ∧ a.1.rowid < b.1.rowid

instance : Std.Irrefl Precedes where
  irrefl a := by
    rintro (less | ⟨-, less⟩)
    · exact Int.lt_irrefl _ less
    · exact Nat.lt_irrefl _ less

instance : Std.Antisymm Precedes where
  antisymm a b := by
    unfold Precedes
    intro first second
    omega

/-- The live rows that have a score, in their order. -/
structure Listing (rows : List Row) (score : Row → Option Float) (all : List (Row × Float)) :
    Prop where
  members : ∀ r x, (r, x) ∈ all ↔ r ∈ rows ∧ r.isLive = true ∧ score r = some x
  ordered : all.Pairwise Precedes

section Listing

variable {rows : List Row} {score : Row → Option Float}

theorem Listing.unique {all others : List (Row × Float)} (one : Listing rows score all)
    (other : Listing rows score others) : all = others := by
  refine one.ordered.eq_of_mem_iff other.ordered ?_
  rintro ⟨r, x⟩
  rw [one.members, other.members]

theorem exists_listing (ordered : rows.Pairwise (·.rowid < ·.rowid)) (score : Row → Option Float) :
    ∃ all, Listing rows score all ∧ all.length ≤ rows.length := by
  let scored : List (Row × Float) :=
    (rows.filter Row.isLive).filterMap fun r => (score r).map (r, ·)
  let le : Row × Float → Row × Float → Bool := fun a b =>
    Binary64.orderKey a.2 ≤ Binary64.orderKey b.2
  have numbered : scored.Pairwise fun a b => a.1.rowid < b.1.rowid := by
    refine List.Pairwise.filterMap _ (fun r r' less b found b' found' => ?_) (ordered.filter _)
    obtain ⟨x, -, rfl⟩ := Option.map_eq_some_iff.mp found
    obtain ⟨x', -, rfl⟩ := Option.map_eq_some_iff.mp found'
    exact less
  have stable : (scored.mergeSort le).Pairwise fun a b =>
      le a b = true ∧ (le b a = true → a.1.rowid < b.1.rowid) :=
    pairwise_mergeSort_stable (by simp only [le, decide_eq_true_eq]; omega)
      (by simp only [le, Bool.or_eq_true, decide_eq_true_eq]; omega) numbered
  refine ⟨scored.mergeSort le, ⟨fun r x => ?_, stable.imp fun {a b} sorted => ?_⟩, ?_⟩
  · simp only [List.mem_mergeSort, scored, List.mem_filterMap, List.mem_filter,
      Option.map_eq_some_iff, Prod.mk.injEq]
    constructor
    · rintro ⟨_, ⟨member, live⟩, _, scored, rfl, rfl⟩
      exact ⟨member, live, scored⟩
    · rintro ⟨member, live, scored⟩
      exact ⟨r, ⟨member, live⟩, x, scored, rfl, rfl⟩
  · have lower := sorted.1
    have tied := sorted.2
    simp only [le, decide_eq_true_eq] at lower tied
    unfold Precedes
    omega
  · rw [List.length_mergeSort]
    exact (List.length_filterMap_le _ _).trans (List.length_filter_le _ _)

theorem listing_of_blank (ordered : rows.Pairwise (·.rowid < ·.rowid)) :
    Listing rows (fun _ => some 0.0) ((rows.filter Row.isLive).map (·, 0.0)) where
  members := by
    intro r x
    simp only [List.mem_map, List.mem_filter, Prod.mk.injEq, Option.some.injEq]
    constructor
    · rintro ⟨_, ⟨member, live⟩, rfl, score⟩
      exact ⟨member, live, score⟩
    · rintro ⟨member, live, score⟩
      exact ⟨r, ⟨member, live⟩, rfl, score⟩
  ordered := by
    rw [List.pairwise_map]
    exact (ordered.filter _).imp fun less => .inr ⟨rfl, less⟩

end Listing

section Ranked

variable {indexing : Indexing} {weights : List Float} {e : Expr} {rows : List Row}

private theorem Ranked.le_trans (a b c : Ranked) (first : a.le b = true) (second : b.le c = true) :
    a.le c = true := by
  unfold Ranked.le at first second ⊢
  split
  · rfl
  rename_i a_number
  rw [if_neg a_number] at first
  split at first
  · cases first
  rename_i b_number
  rw [if_neg b_number] at second
  split at second
  · cases second
  rename_i c_number
  rw [if_neg c_number]
  simp only [decide_eq_true_eq] at first second ⊢
  exact Int.le_trans first second

private theorem Ranked.le_total (a b : Ranked) : (a.le b || b.le a) = true := by
  unfold Ranked.le
  split
  · rfl
  · split
    · simp
    · simp only [Bool.or_eq_true, decide_eq_true_eq]
      omega

theorem mem_ranked {r : Ranked} (member : r ∈ ranked indexing weights e rows) :
    r.row ∈ rows ∧ scoreAmong indexing weights e r.row = some r.score := by
  obtain ⟨row, here, found⟩ := List.mem_filterMap.mp member
  obtain ⟨m, known, rfl⟩ := Option.map_eq_some_iff.mp found
  exact ⟨here, Option.map_eq_some_iff.mpr ⟨m, known, rfl⟩⟩

theorem exists_ranked {r : Row} {x : Float} (here : r ∈ rows)
    (score : scoreAmong indexing weights e r = some x) :
    ∃ a ∈ ranked indexing weights e rows, a.row = r ∧ a.score = x := by
  obtain ⟨m, known, rfl⟩ := Option.map_eq_some_iff.mp score
  exact ⟨_, List.mem_filterMap.mpr ⟨r, here, Option.map_eq_some_iff.mpr ⟨m, known, rfl⟩⟩, rfl, rfl⟩

/-- The live rows of a ranking, best first. -/
def bestFirst (indexing : Indexing) (weights : List Float) (e : Expr) (rows : List Row) :
    List Ranked :=
  ((ranked indexing weights e rows).mergeSort Ranked.le).filter fun r => r.row.isLive

theorem mem_bestFirst {r : Ranked} :
    r ∈ bestFirst indexing weights e rows ↔ r ∈ ranked indexing weights e rows ∧
    r.row.isLive = true := by
  rw [bestFirst, List.mem_filter, List.mem_mergeSort]

theorem length_sorted_le : ((ranked indexing weights e rows).mergeSort Ranked.le).length ≤
    rows.length := by
  rw [List.length_mergeSort]
  exact List.length_filterMap_le _ _

theorem length_bestFirst_le : (bestFirst indexing weights e rows).length ≤ rows.length :=
  (List.length_filter_le _ _).trans length_sorted_le

theorem pairwise_bestFirst (ordered : rows.Pairwise (·.rowid < ·.rowid)) :
    (bestFirst indexing weights e rows).Pairwise fun a b =>
      a.le b = true ∧ (b.le a = true → a.row.rowid < b.row.rowid) := by
  have numbered : (ranked indexing weights e rows).Pairwise fun a b =>
    a.row.rowid < b.row.rowid := by
    refine List.Pairwise.filterMap _ (fun r r' less b found b' found' => ?_) ordered
    obtain ⟨m, -, rfl⟩ := Option.map_eq_some_iff.mp found
    obtain ⟨m', -, rfl⟩ := Option.map_eq_some_iff.mp found'
    exact less
  exact (pairwise_mergeSort_stable Ranked.le_trans Ranked.le_total numbered).filter _

/-- Where all scores are numbers, the live rows of a ranking are the listing of the rows that
match. -/
theorem listing_of_bestFirst (ordered : rows.Pairwise (·.rowid < ·.rowid))
    (numbers : ∀ r ∈ bestFirst indexing weights e rows, Binary64.isNaN r.score = false) :
    Listing rows (scoreAmong indexing weights e)
      ((bestFirst indexing weights e rows).map fun r => (r.row, r.score)) where
  members := by
    intro r x
    rw [List.mem_map]
    constructor
    · rintro ⟨a, member, same⟩
      obtain ⟨rfl, rfl⟩ := Prod.mk.inj same
      obtain ⟨found, live⟩ := mem_bestFirst.mp member
      exact ⟨(mem_ranked found).1, live, (mem_ranked found).2⟩
    · rintro ⟨here, live, score⟩
      obtain ⟨a, member, rfl, rfl⟩ := exists_ranked here score
      exact ⟨a, mem_bestFirst.mpr ⟨member, live⟩, rfl⟩
  ordered := by
    rw [List.pairwise_map]
    refine (pairwise_bestFirst ordered).imp_of_mem fun {a b} a_mem b_mem sorted => ?_
    have a_number := numbers a a_mem
    have b_number := numbers b b_mem
    obtain ⟨lower, tied⟩ := sorted
    simp only [Ranked.le, a_number, b_number, Bool.false_eq_true, if_false,
      decide_eq_true_eq] at lower tied
    rcases Int.lt_or_eq_of_le lower with less | same
    · exact .inl less
    · exact .inr ⟨same, tied (Int.le_of_eq same.symm)⟩

theorem number_of_hit {tokenizer : Tokenizer} {r : Ranked} {h : Hit}
    (ok : hit tokenizer e r = .ok h) :
    Binary64.isNaN r.score = false ∧
    h = ⟨r.row.rowid, r.row.title, r.row.sourcePath, r.row.tag, snippet tokenizer e r,
      r.score⟩ := by
  unfold hit at ok
  split at ok
  · cases ok
  split at ok
  · cases ok
  · rename_i number
    cases ok
    exact ⟨Bool.eq_false_iff.mpr number, rfl⟩

/-- A score that is no number comes first, so that a search which has a hit has numbers alone. -/
theorem numbers_of_best {limit : Nat} {hits : List Hit}
    (ordered : rows.Pairwise (·.rowid < ·.rowid)) (positive : 1 ≤ limit)
    (ok : best indexing weights e rows limit = .ok hits) :
    ∀ r ∈ bestFirst indexing weights e rows, Binary64.isNaN r.score = false := by
  have each := mapM_ok_iff.mp ok
  have sorted : (bestFirst indexing weights e rows).Pairwise _ := pairwise_bestFirst ordered
  change List.Forall₂ _ ((bestFirst indexing weights e rows).take limit) hits at each
  generalize bestFirst indexing weights e rows = found at each sorted
  cases found with
  | nil => simp
  | cons first rest =>
    obtain ⟨limit, rfl⟩ : ∃ fewer, limit = fewer + 1 := ⟨limit - 1, by omega⟩
    rw [List.take_succ_cons] at each
    cases each with
    | cons head _ =>
      have number := (number_of_hit head).1
      intro r member
      rcases List.mem_cons.mp member with rfl | later
      · exact number
      · have below := (List.rel_of_pairwise_cons sorted later).1
        refine Bool.eq_false_iff.mpr fun none_such => ?_
        simp [Ranked.le, number, none_such] at below

end Ranked

end Search

end TextArchive
