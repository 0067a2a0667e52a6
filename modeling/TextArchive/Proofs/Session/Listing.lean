import TextArchive.Proofs.Search.Hiding
import TextArchive.Proofs.Session.Findability

/-!
What a listing shows of the contents. A search for a blank text shows the start of the content of
each live row, but no character from the first zero character on, although all of the content has
been kept.
-/

set_option autoImplicit false
set_option relaxedAutoImplicit false

namespace TextArchive

open TextArchive.File (Disk Path)
open TextArchive.Ingest
open TextArchive.Store (Connection Database Engine Indexing Row Storage Table)

namespace Search

private theorem beginning_eq (content : String) :
    beginning content = String.ofList (untilZero (content.toList.take listedLength)) := by
  rw [beginning, untilZero, untilZero, List.take_takeWhile]

private theorem beginning_eq_iff (content : String) :
    beginning content = String.ofList (content.toList.take listedLength) ↔
      '\x00' ∉ content.toList.take listedLength := by
  rw [beginning_eq, String.ofList_inj, untilZero, List.takeWhile_eq_self_iff]
  constructor
  · intro all member
    simpa using all _ member
  · intro missing c member
    simpa using fun zero : c = '\x00' => missing (zero ▸ member)

/-- A hit of a listing that stands for a row, and the record that the row has been made of. -/
structure ListsRecord (records : List Record) (r : Row) (h : Hit) (record : Record) : Prop where
  handed : records[r.rowid - 1]? = some record
  title : h.title = record.title
  sourcePath : h.sourcePath = record.sourcePath
  tag : h.tag = record.tag
  snippet : h.snippet = String.ofList (untilZero (record.content.toList.take 200))

variable {mark : Row → Row} (marking : Row.Marking mark) (opened : Nat) (collection : String)
include marking

private theorem listsRecord_of_getElem? {records : List Record} {n : Nat} {record : Record}
    (handed : records[n]? = some record) :
    let r := mark (Row.ofRecord (1 + n) record)
    ListsRecord records r (listedAfter opened collection r) record := by
  intro r
  have number : r.rowid - 1 = n := by
    rw [show r = _ from marking _]
    exact Nat.add_sub_cancel_left 1 n
  have shown : listed r = listed (Row.ofRecord (1 + n) record) := listed_marking marking _
  have snippet : (listed r).snippet = String.ofList
    (untilZero (record.content.toList.take 200)) := by
    rw [shown]
    exact beginning_eq record.content
  unfold listedAfter
  split
  · exact ⟨number ▸ handed, congrArg Hit.title shown, congrArg Hit.sourcePath shown,
      congrArg Hit.tag shown, snippet⟩
  · exact ⟨number ▸ handed, congrArg Hit.title shown, congrArg Hit.sourcePath shown,
      congrArg Hit.tag shown, snippet⟩

end Search

namespace Session

/-- A search for a blank text lists the live rows in the order in which their records have been
handed over, as many as asked for, whatever deletion times have been set. Each hit shows the first
two hundred characters of the content of its record, or all of it if there are fewer, but they end
where there is a zero character among them; so it shows the first characters as they are just if
there is none. The contents of the records are those of the files that have been ingested, with all
that can be decoded of them. No batch may have been given up without a journal. -/
theorem listing_shows_contents [Engine] {session : Session} (reachable : session.Reachable)
    {key : Nat} (whole : AreWhole session.insertions key) {collection : String} {t : Table}
    (found : (session.storage.database key).find? collection = some (.table t)) {mark : Row → Row}
    (marking : Row.Marking mark) {text : String} (blank : (Text.trim text.toList).isEmpty = true)
    {topK : Nat} (positive : 1 ≤ topK) (opened : Nat) :
    let db := (session.storage.database key).modify collection (·.mapRows mark)
    let records := held session.insertions key collection
    let live := ((Row.numberedFrom 1 records).map mark).filter Row.isLive
    ∃ hits, (searchAfter opened db collection text topK).1 = .ok hits ∧
      List.Forall₂ (fun r h => ∃ record, Search.ListsRecord records r h record ∧
        (h.snippet = String.ofList (record.content.toList.take 200) ↔ '\x00' ∉ record.content.toList.take 200))
        (live.take (min topK Search.greatestLimit)) hits ∧
      ∀ options tree path bytes, Ingested key collection options tree path session →
        tree.read path = .ok bytes →
        ∃ record ∈ records, record.content =
          String.ofList
            (Text.Utf8.decodeDropping (RecordBuilder.capped options.limitBytes bytes)) := by
  intro db records live
  have holds := reachable.sound.keeps.holds key whole
  obtain ⟨indexing, kind⟩ := holds.arises.sound.indexed t (Database.mem_of_find? found).1
  have rows : t.rows = Row.numberedFrom 1 records := holds.rows collection t found
  have answer := searchAfter_blank (Database.find?_mapRows found mark) kind blank positive opened
  rw [show (t.mapRows mark).rows = (Row.numberedFrom 1 records).map mark from congrArg (List.map mark) rows] at answer
  refine ⟨_, answer, ?_, fun options tree path bytes ingested read => ?_⟩
  · refine List.forall₂_map_right_iff.mpr (List.forall₂_same.mpr fun r member => ?_)
    obtain ⟨before, inside, rfl⟩ := List.mem_map.mp
      (List.mem_of_mem_filter (List.mem_of_mem_take member))
    obtain ⟨n, bound, rfl⟩ := List.mem_mapIdx.mp inside
    have lists := Search.listsRecord_of_getElem? marking opened collection
      (List.getElem?_eq_getElem bound)
    refine ⟨records[n], lists, ?_⟩
    have shows := lists.snippet.trans (Search.beginning_eq records[n].content).symm
    rw [shows]
    exact Search.beginning_eq_iff records[n].content
  · exact ⟨_, ingested.mem_held, content_of_read options read⟩

def withRecords [Engine] (records : List Record) : Session :=
  ((start ⟨[], []⟩).perform (.connect Storage.memoryPath {})).perform
    (.use 0 (.insertBatch records))

section WithRecords

variable [Engine] {records : List Record}

private theorem reachable_withRecords (records : List Record) : (withRecords records).Reachable :=
  ((Reachable.start ⟨[], []⟩ rfl).perform _).perform _

variable (free : (StoreCall.insertBatch records).IsFree)
include free

private theorem insertions_withRecords :
    (withRecords records).insertions = [⟨0, "documents", true, records, .ok ()⟩] := by
  let before : Session :=
    ⟨⟨⟨[], []⟩, [⟨false, [⟨"documents", .indexed (.empty "unicode61" .standard), []⟩]⟩], [0]⟩,
      [⟨0, .memory, Storage.memoryPath, "documents", some .memory, .asked .memory {}⟩], []⟩
  have steps : withRecords records = before.perform (.use 0 (.insertBatch records)) := by
    simp only [withRecords, perform_connect_memory]
    rfl
  have there : (before.storage.database 0).IsCollection "documents" := ⟨_, _, rfl, rfl⟩
  rw [steps, insertions_insertBatch rfl there free]
  rfl

private theorem areWhole_withRecords : AreWhole (withRecords records).insertions 0 := by
  rw [insertions_withRecords free]
  exact fun i member _ => List.mem_singleton.mp member ▸ rfl

private theorem held_withRecords : held (withRecords records).insertions 0 "documents" = records :=
    by
  rw [insertions_withRecords free, held_taken _ rfl, if_pos ⟨rfl, Store.Name.same_refl _⟩]

private theorem find?_withRecords : ∃ t indexing,
    ((withRecords records).storage.database 0).find? "documents" = some (.table t) ∧
    t.kind = .indexed indexing ∧
      t.rows = Row.numberedFrom 1 records := by
  have keeps := (reachable_withRecords records).sound.keeps
  obtain ⟨t, indexing, found, kind⟩ := keeps.taken ⟨0, "documents", true, records, .ok ()⟩
    (by rw [insertions_withRecords free]; exact List.mem_cons_self) rfl
  refine ⟨t, indexing, found, kind, ?_⟩
  rw [(keeps.holds 0 (areWhole_withRecords free)).rows _ t found, held_withRecords free]

end WithRecords

/-- Four records, the first with more characters than are shown, the second without content and the
third with a zero character in its content. The last one is deleted softly. -/
theorem listing_shows_contents_of_three :
    let records : List Record :=
      [{ title := "a", content := String.ofList (List.replicate 201 'é') }, { title := "b" },
        { title := "c", content := "x\x00y" }, { title := "d" }]
    let mark := Row.setDeleted (fun r => r.title = "d") (some "2024-06-01")
    let db := ((withRecords records).storage.database 0).modify "documents" (·.mapRows mark)
    (withRecords records).Reachable ∧ AreWhole (withRecords records).insertions 0 ∧
    (∃ t, ((withRecords records).storage.database 0).find? "documents" = some (.table t)) ∧
      Row.Marking mark ∧
    (Text.trim " ".toList).isEmpty = true ∧
    ∃ hits, (searchAfter 0 db "documents" " " 10).1 = .ok hits ∧
      hits.map (·.snippet) = [String.ofList (List.replicate 200 'é'), "", "x"] := by
  intro records mark db
  have reachable := reachable_withRecords records
  have free : (StoreCall.insertBatch records).IsFree := StoreCall.isFree_of_size (by decide +kernel)
  have whole := areWhole_withRecords free
  obtain ⟨t, -, found, -⟩ := find?_withRecords free
  have marking : Row.Marking mark := Row.marking_setDeleted _ _
  have blank : (Text.trim " ".toList).isEmpty = true := by decide +kernel
  have ten : 1 ≤ 10 := by decide
  obtain ⟨hits, ok, each, -⟩ := listing_shows_contents reachable whole found marking blank ten 0
  refine ⟨reachable, whole, ⟨t, found⟩, marking, blank, hits, ok, ?_⟩
  have live : (((Row.numberedFrom 1 records).map mark).filter Row.isLive).take
    (min 10 Search.greatestLimit) =
      [⟨1, "a", "", String.ofList (List.replicate 201 'é'), "", none⟩, ⟨2, "b", "", "", "", none⟩,
        ⟨3, "c", "", "x\x00y", "", none⟩] := by decide +kernel
  rw [held_withRecords free, live] at each
  obtain _ | ⟨⟨_, ⟨first, -, -, -, a⟩, -⟩, _ | ⟨⟨_, ⟨second, -, -, -, b⟩, -⟩, _ | ⟨⟨_, ⟨third, -, -,
    -, c⟩, -⟩, _ | _⟩⟩⟩ :=
    each
  cases first
  cases second
  cases third
  have cut : Search.untilZero ((String.ofList (List.replicate 201 'é')).toList.take 200)
    = List.replicate 200 'é' := by
    rw [String.toList_ofList]
    decide +kernel
  have empty : String.ofList (Search.untilZero ("".toList.take 200)) = "" := by decide +kernel
  have zero : String.ofList (Search.untilZero ("x\x00y".toList.take 200)) = "x" := by decide +kernel
  rw [List.map_cons, List.map_cons, List.map_cons, List.map_nil, a, b, c, cut, empty, zero]

/-- Of a content with a zero character after its first character only that character is shown. -/
theorem content_shown_up_to_zero_character :
    let record : Record := { title := "t", content := "a\x00b" }
    let session := withRecords [record]
    session.Reachable ∧ held session.insertions 0 "documents" = [record] ∧
    ∃ h, (searchAfter 0 (session.storage.database 0) "documents" "" 1).1 = .ok [h] ∧
      h.title = "t" ∧ h.snippet = "a" ∧
      h.snippet ≠ String.ofList (record.content.toList.take 200) := by
  intro record session
  have free : (StoreCall.insertBatch [record]).IsFree :=
    StoreCall.isFree_of_size (by decide +kernel)
  obtain ⟨t, indexing, found, kind, rows⟩ := find?_withRecords free
  have blank : (Text.trim "".toList).isEmpty = true := by decide +kernel
  have answer := searchAfter_blank found kind blank (Nat.le_refl 1) 0
  have live : (t.rows.filter Row.isLive).take (min 1 Search.greatestLimit) = [⟨1, "t", "", "a\x00b",
    "", none⟩] := by
    rw [rows]
    decide +kernel
  rw [live] at answer
  exact ⟨reachable_withRecords _, held_withRecords free, _, answer, by decide +kernel,
    by decide +kernel, by decide +kernel⟩

end Session

end TextArchive
