import TextArchive.Proofs.Search.Cursors
import TextArchive.Proofs.Search.Ranking
import TextArchive.Proofs.Session.AppendOnly

/-!
The hits of a search: the first rows of the listing of its text, with what is stored of them. A
search for fewer hits finds the first of those that a search for more hits finds.
-/

set_option autoImplicit false
set_option relaxedAutoImplicit false

namespace TextArchive

open TextArchive.Index (Tokenizer)
open TextArchive.Number
open TextArchive.Query (Expr)
open TextArchive.Store (Database Engine Indexing Row StoreError Table)

/-- What a hit shows of its row, excerpt apart, and its score. -/
def Hit.shown (h : Hit) : Nat × String × String × String × Float :=
  (h.rowid, h.title, h.sourcePath, h.tag, h.score)

namespace Search

/-- What is shown of a row with its score. -/
def shown (a : Row × Float) : Nat × String × String × String × Float :=
  (a.1.rowid, a.1.title, a.1.sourcePath, a.1.tag, a.2)

/-- A way to find hits that finds no more than asked for, and the first of them if it is asked for
fewer. -/
def Limited (find : Nat → Except StoreError (List Hit)) : Prop :=
  ∀ many hits, find many = .ok hits →
    hits.length ≤ many ∧ ∀ few, few ≤ many → find few = .ok (hits.take few)

private theorem limited_of_take {all : List Hit} : Limited fun limit => .ok (all.take limit) := by
  rintro many hits ⟨⟩
  refine ⟨List.length_take_le _ _, fun few fewer => ?_⟩
  rw [List.take_take, Nat.min_eq_left fewer]

private theorem limited_of_error (e : StoreError) : Limited fun _ => .error e := by
  rintro many hits ⟨⟩

private theorem limited_best (indexing : Indexing) (weights : List Float) (e : Expr)
    (rows : List Row) :
    Limited (best indexing weights e rows) := by
  intro many hits ok
  have each := mapM_ok_iff.mp ok
  constructor
  · rw [← each.length_eq]
    exact List.length_take_le _ _
  · intro few fewer
    have first := mapM_ok_iff.mpr (List.forall₂_take few each)
    rwa [List.take_take, Nat.min_eq_left fewer] at first

private theorem limited_listCollection (db : Database) (collection : String) :
    Limited (listCollection db collection) := by
  unfold listCollection
  split
  · exact limited_of_error _
  · simp only [listing, List.map_take]
    exact limited_of_take
  · split <;> exact limited_of_error _

private theorem limited_searchTime (db : Database) (collection : String) :
    Limited fun _ => searchTime db collection := by
  unfold searchTime
  split
  · exact limited_of_error _
  · split
    · exact limited_of_error _
    · have nothing : Limited fun limit => .ok (([] : List Hit).take limit) := limited_of_take
      simpa using nothing
  · exact limited_of_error _

private theorem limited_rankCollection (db : Database) (collection : String) (text : List Char) :
    Limited (rankCollection db collection text) := by
  unfold rankCollection
  split
  · exact limited_of_error _
  split
  · exact limited_searchTime db collection
  split
  · exact limited_of_error _
  · split
    · exact limited_of_error _
    · exact limited_best _ _ _ _
  · split <;> exact limited_of_error _
  · split <;> exact limited_of_error _

/-- How hits are found, given how many. -/
def finder (db : Database) (collection text : String) (limit : Nat) :
    Except StoreError (List Hit) :=
  if (Text.trim text.toList).isEmpty then listCollection db collection limit
  else rankCollection db collection (Text.trim text.toList) limit

private theorem limited_finder (db : Database) (collection text : String) :
    Limited (finder db collection text) := by
  unfold finder
  split
  · exact limited_listCollection db collection
  · exact limited_rankCollection db collection _

theorem answer_ok_iff {db : Database} {collection text : String} {topK : Nat} {hits : List Hit} :
    answer db collection text topK = .ok hits ↔
      1 ≤ topK ∧ finder db collection text (min topK greatestLimit) = .ok hits := by
  unfold answer finder
  by_cases zero : topK = 0
  · simp [zero]
  · have positive : 1 ≤ topK := Nat.pos_of_ne_zero zero
    simp only [zero, if_false, positive, true_and]
    split <;> rename_i ran <;> rw [ran] <;> simp

theorem shown_of_hits {tokenizer : Tokenizer} {e : Expr} {found : List Ranked} {hits : List Hit}
    (each : List.Forall₂ (fun r h => hit tokenizer e r = .ok h) found hits) :
    hits.map Hit.shown = found.map fun r => shown (r.row, r.score) := by
  induction each with
  | nil => rfl
  | cons first _ rest =>
    have stored := (number_of_hit first).2
    rw [List.map_cons, List.map_cons, rest, stored]
    rfl

section Table

variable {db : Database} {collection : String} {t : Table} {indexing : Indexing}
  (found : db.find? collection = some (.table t)) (ordered : t.rows.Pairwise (·.rowid < ·.rowid))
include found ordered

private theorem hits_of_listCollection {text : String} {limit : Nat} {hits : List Hit}
    (blank : (Text.trim text.toList).isEmpty = true)
    (ok : listCollection db collection limit = .ok hits) :
    ∃ all, Listing t.rows (scoreOf indexing text) all ∧
    hits.map Hit.shown = (all.take limit).map shown := by
  have score : scoreOf indexing text = fun _ => some 0.0 := by
    funext r
    simp only [scoreOf, blank, if_true]
  refine ⟨_, score ▸ listing_of_blank ordered, ?_⟩
  simp only [listCollection, found] at ok
  cases ok
  simp only [listing, ← List.map_take, List.map_map]
  rfl

/-- The hits for a text are the first rows of the listing of its matches, and all of its scores are
numbers. -/
theorem hits_of_rankCollection (kind : t.kind = .indexed indexing) {text : String} {limit : Nat}
    {hits : List Hit} (positive : 1 ≤ limit) (words : (Text.trim text.toList).isEmpty = false)
    (ok : rankCollection db collection (Text.trim text.toList) limit = .ok hits) :
    ∃ all, Listing t.rows (scoreOf indexing text) all ∧
      (∀ a ∈ all, Binary64.isNaN a.2 = false) ∧
      hits.map Hit.shown = (all.take limit).map shown := by
  obtain ⟨name, _, rows⟩ := t
  subst kind
  unfold rankCollection at ok
  split at ok
  · cases ok
  split at ok
  · simp only [searchTime, found] at ok
    split at ok
    · cases ok
    rename_i dead
    cases ok
    refine ⟨[], ⟨fun r x => ?_, .nil⟩, by simp, by simp⟩
    simp only [List.not_mem_nil, false_iff]
    rintro ⟨here, live, -⟩
    exact dead (List.any_eq_true.mpr ⟨r, here, live⟩)
  simp only [found] at ok
  cases read : expression indexing.tokenizer (Text.trim text.toList) with
  | error e => simp [read] at ok
  | ok e =>
    simp only [read] at ok
    have score : scoreOf indexing text = scoreAmong indexing
        ((indexing.rank.map Index.RankExpression.weights).getD []) e := by
      funext r
      simp only [scoreOf, words, Bool.false_eq_true, if_false, read]
    have numbers := numbers_of_best ordered positive ok
    refine ⟨_, score ▸ listing_of_bestFirst ordered numbers, ?_, ?_⟩
    · intro a member
      obtain ⟨r, here, rfl⟩ := List.mem_map.mp member
      exact numbers r here
    · rw [← List.map_take, List.map_map]
      exact shown_of_hits (mapM_ok_iff.mp ok)

end Table

end Search

/-- The rows of a table that is found in a session are kept in the order of their numbers, as long
as the numbers suffice and no batch has been given up without a journal. -/
theorem Session.Reachable.keyed [Engine] {s : Session} (reachable : s.Reachable) {key : Nat}
    (whole : AreWhole s.insertions key) {name : String} {t : Table}
    (found : (s.storage.database key).find? name = some (.table t))
    (bounded : t.rows.length < 2 ^ 63) : t.Keyed := by
  have rows := (reachable.sound.keeps.holds key whole).rows name t found
  refine Store.Table.keyed_of_rows rows ?_
  rwa [rows, Row.numberedFrom, List.length_mapIdx] at bounded

/-- A search of a collection that does not hide the numbers of its rows gives the beginning of one
list, whose length is that asked for or that of the whole list. The list has all live rows that the
text matches and no others, each of them once, by their scores and then by their numbers; for a
blank text it has all live rows by their numbers. The hits show what is stored of these rows. A
search for fewer hits gives the beginning of what a search for more hits gives, and one for no hits
fails. -/
theorem search_best_first {db : Database} {collection : String}
    (visible : Search.hidesNumbers collection = false) {t : Table} {indexing : Indexing}
    (found : db.find? collection = some (.table t)) (kind : t.kind = .indexed indexing)
    (keyed : t.Keyed) (text : String) (opened : Nat) :
    let search topK := (searchAfter opened db collection text topK).1
    search 0 = .error .zeroHits ∧
    ∃ all : List (Row × Float),
      (∀ r x,
        (r, x) ∈ all ↔ r ∈ t.rows ∧ r.deletedAt = none ∧ Search.scoreOf indexing text r = some x) ∧
      all.Pairwise (fun a b => Binary64.orderKey a.2 < Binary64.orderKey b.2 ∨
        Binary64.orderKey a.2 = Binary64.orderKey b.2 ∧ a.1.rowid < b.1.rowid) ∧
      ∀ topK hits, search topK = .ok hits →
        hits.map (fun h => (h.rowid, h.title, h.sourcePath, h.tag, h.score)) =
          (all.take topK).map (fun a => (a.1.rowid, a.1.title, a.1.sourcePath, a.1.tag, a.2)) ∧
        (Text.trim text.toList ≠ [] → ∀ a ∈ all, Binary64.isNaN a.2 = false) ∧
        ∀ few, 1 ≤ few → few ≤ topK → search few = .ok (hits.take few) := by
  have same : ∀ topK, (searchAfter opened db collection text topK).1 = Search.answer db collection
    text topK :=
    fun topK => congrArg Prod.fst (searchAfter_eq visible opened db text topK)
  simp only [same]
  obtain ⟨all, listing, short⟩ := Search.exists_listing keyed.ordered (Search.scoreOf indexing text)
  have bounded : all.length ≤ Search.greatestLimit := short.trans keyed.length_le
  have clamped : ∀ topK, all.take (min topK Search.greatestLimit) = all.take topK := by
    intro topK
    rw [← List.take_take, List.take_of_length_le bounded]
  refine ⟨rfl, all, ?_, listing.ordered, fun topK hits ok => ?_⟩
  · simpa [Row.isLive] using listing.members
  obtain ⟨positive, ok⟩ := Search.answer_ok_iff.mp ok
  have some_limit : 1 ≤ min topK Search.greatestLimit := Nat.le_min.mpr ⟨positive, by decide⟩
  obtain ⟨length, fewer⟩ := Search.limited_finder db collection text _ _ ok
  refine ⟨?_, ?_, fun few some_few less => ?_⟩
  · rw [← clamped]
    unfold Search.finder at ok
    split at ok
    · rename_i blank
      obtain ⟨others, same, shown⟩ := Search.hits_of_listCollection found keyed.ordered blank ok
      rw [listing.unique same]
      exact shown
    · rename_i words
      obtain ⟨others, same, -, shown⟩ :=
        Search.hits_of_rankCollection found keyed.ordered kind some_limit
        (Bool.eq_false_iff.mpr words) ok
      rw [listing.unique same]
      exact shown
  · intro words
    have words : (Text.trim text.toList).isEmpty = false := by simpa using words
    simp only [Search.finder, words, Bool.false_eq_true, if_false] at ok
    obtain ⟨others, same, numbers, -⟩ :=
      Search.hits_of_rankCollection found keyed.ordered kind some_limit words ok
    rw [listing.unique same]
    exact numbers
  · refine Search.answer_ok_iff.mpr ⟨some_few, ?_⟩
    have first := fewer (min few Search.greatestLimit) (by omega)
    rw [first, ← List.take_take,
      List.take_of_length_le (Nat.le_trans length (Nat.min_le_right _ _))]

/-- A collection with a deleted row between live ones, and two of its rows asked for. -/
theorem search_best_first_of_blank_text :
    let row (n : Nat) (title : String) (deletedAt : Option String) : Row := ⟨n, title, title ++ ".txt", "", "", deletedAt⟩
    let t : Table := ⟨"documents", .indexed (.empty "porter" (.stems .standard)),
      [row 1 "a" none, row 2 "b" (some "2024-05-01"), row 3 "c" none, row 4 "d" none]⟩
    let db : Database := ⟨false, [t]⟩
    let search topK := (searchAfter 5 db "documents" " \n" topK).1
    Search.hidesNumbers "documents" = false ∧ db.find? "documents" = some (.table t) ∧ t.Keyed ∧
      search 2 = .ok [Search.listed (row 1 "a" none), Search.listed (row 3 "c" none)] ∧
      search 1 = .ok [Search.listed (row 1 "a" none)] ∧ search 0 = .error .zeroHits := by
  intro row t db search
  have visible : Search.hidesNumbers "documents" = false := by decide +kernel
  have found : db.find? "documents" = some (.table t) := by decide +kernel
  have keyed : t.Keyed := ⟨by decide, by decide, by decide⟩
  have blank : (Text.trim " \n".toList).isEmpty = true := by decide +kernel
  have two : search 2 = .ok [Search.listed (row 1 "a" none), Search.listed (row 3 "c" none)] := by
    show (searchAfter 5 db "documents" " \n" 2).1 = _
    rw [searchAfter_eq visible]
    show Search.answer db "documents" " \n" 2 = _
    refine Search.answer_ok_iff.mpr ⟨by decide, ?_⟩
    rw [Search.finder, if_pos blank, Search.listCollection, found]
    rfl
  obtain ⟨zero, all, -, -, hits⟩ := search_best_first visible found rfl keyed " \n" 5
  obtain ⟨-, -, fewer⟩ := hits 2 _ two
  exact ⟨visible, found, keyed, two, fewer 1 (by decide) (by decide), zero⟩

/-- A collection that hides the numbers of its rows shows the number of a cursor in their place,
twice. -/
theorem search_shows_cursor_number :
    let row (n : Nat) (title : String) : Row := ⟨n, title, "", "", "", none⟩
    let db : Database :=
      ⟨false, [⟨"rowid", .indexed (.empty "unicode61" .standard), [row 1 "a", row 2 "b"]⟩]⟩
    ((searchAfter 0 db "rowid" "" 2).1.toOption.map (List.map Hit.rowid)) = some [1, 1] := by
  rfl

end TextArchive
