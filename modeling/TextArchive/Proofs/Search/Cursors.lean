import TextArchive.Proofs.Store.Lookup
import TextArchive.Search.Cursor

/-!
Searches on a connection. How many cursors the connection has opened shows in the answers for one
collection name alone, and there a listing differs in the numbers of its hits and in nothing else.
-/

set_option autoImplicit false
set_option relaxedAutoImplicit false

namespace TextArchive

open TextArchive.Store (Database Indexing Row Table)

/-- How a row stands in a listing on a connection that has opened so many cursors. -/
def Search.listedAfter (opened : Nat) (collection : String) (r : Row) : Hit :=
  if hidesNumbers collection then (listed r).numbered (opened + 1) else listed r

theorem searchAfter_eq {collection : String} (shows : Search.hidesNumbers collection = false)
    (opened : Nat) (db : Database) (text : String) (topK : Nat) :
    searchAfter opened db collection text topK =
    (Search.answer db collection text topK, opened) := by
  simp only [searchAfter, shows]

section Blank

variable {db : Database} {collection : String} {t : Table} {indexing : Indexing}
  (found : db.find? collection = some (.table t)) (kind : t.kind = .indexed indexing)
include found kind

theorem searchAfter_blank {text : String} {topK : Nat}
    (blank : (Text.trim text.toList).isEmpty = true) (positive : 1 ≤ topK) (opened : Nat) :
    (searchAfter opened db collection text topK).1 =
      .ok (((t.rows.filter Row.isLive).take (min topK Search.greatestLimit)).map
        (Search.listedAfter opened collection)) := by
  obtain ⟨name, _, rows⟩ := t
  obtain rfl := kind
  have some_asked : topK ≠ 0 := Nat.ne_of_gt positive
  cases hides : Search.hidesNumbers collection with
  | false =>
    have as_listed : Search.listedAfter opened collection = Search.listed := by
      funext r
      simp [Search.listedAfter, hides]
    rw [searchAfter_eq hides, as_listed]
    simp only [Search.answer, some_asked, if_false, blank, if_true, Search.listCollection, found,
      Search.listing]
  | true =>
    have renumbered : Search.listedAfter opened collection = fun r =>
      (Search.listed r).numbered (opened + 1) := by
      funext r
      simp [Search.listedAfter, hides]
    rw [renumbered]
    simp only [searchAfter, hides, found, some_asked, if_false, Search.searchHidden, blank, if_true,
      Search.listing, List.map_map]
    rfl

end Blank

end TextArchive
