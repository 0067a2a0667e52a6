import TextArchive.Proofs.Search.Cursors
import TextArchive.Proofs.Session.Keeping
import TextArchive.Proofs.Store.Calls
import TextArchive.Proofs.Store.Names

/-!
Opening a store where there is none. Whether it can be opened depends on the name of the collection,
and a store that has been opened takes every call.
-/

set_option autoImplicit false
set_option relaxedAutoImplicit false

namespace TextArchive.Store

open TextArchive.File (Disk Path)
open TextArchive.Ingest

private theorem Database.has_created {writeAhead : Bool} {name specification : String}
    {tokenizer : Index.Tokenizer}
    (created : Database.createCollection ⟨writeAhead, []⟩ name specification =
      .ok ⟨writeAhead, [⟨name, .indexed (.empty specification tokenizer), []⟩]⟩)
    {s : StoredCollection} (called : s.name = name)
    (made : s.database = ⟨writeAhead, [⟨name, .indexed (.empty specification tokenizer), []⟩]⟩) :
    s.Has name none [] where
  called := called
  holds := ⟨fun _ => [],
    made ▸ (holds_empty.withWriteAhead writeAhead).createCollection created, rfl⟩
  ranked := by
    rw [made]
    refine ⟨(sound_empty.withWriteAhead writeAhead).createCollection created, ?_⟩
    exact ⟨_, _, @find?_add_self ⟨writeAhead, []⟩ name _ (find?_of_no_tables rfl name), rfl, rfl⟩

namespace Storage

/-- A path at which there is no database, in a directory that exists. -/
structure Absent (s : Storage) (path : Path) : Prop where
  kept : IsFilePath path
  whole : path.bytes.findIdx? (· = 0) = none
  free : ∃ place, databasePlace? s.disk path = some place ∧ s.disk.node? place = none

variable {s : Storage} {path : Path}

private theorem Absent.attach (absent : s.Absent path) :
    ∃ place, s.attach path true = .ok (s.addAt place) := by
  obtain ⟨place, leads, free⟩ := absent.free
  exact ⟨place, attach_missing absent.whole absent.kept leads free⟩

/-- With the standard tokenizer and the standard settings a connection is made to an empty
collection, unless its name is reserved. -/
theorem Absent.connect (absent : s.Absent path) {name : String} (valid : Name.isName name = true) :
    let made := s.connect path { collection := name }
    (Name.isReserved name = true → ∃ e, made.result = .error (.storeUnavailable path e)) ∧
    (Name.isReserved name = false → ∃ c, made.result = .ok c ∧
      (c.stored made.state).Has name none []) := by
  intro made
  obtain ⟨place, attached⟩ := absent.attach
  have accepted : ({ collection := name } : Config).validate = .ok () := by
    simp only [Config.validate, valid, if_true]
    rfl
  have new : (s.addAt place).2.database (s.addAt place).1.key = .empty := by
    simp [addAt, Storage.add, Storage.database]
  have inside : (s.addAt place).1.key < (s.addAt place).2.databases.length := by
    simp [addAt, Storage.add]
  have medium : (s.addAt place).1.medium = .file := rfl
  generalize s.addAt place = added at attached new inside medium
  obtain ⟨there, s'⟩ := added
  have unlogged : (s'.database there.key).writeAhead = false := by
    rw [new]
    rfl
  have steady : there.medium ≠ .device := by
    rw [show there.medium = .file from medium]
    decide
  have journal : Statement.unclosedSetting? "journal_mode" "WAL" = none := by decide +kernel
  have closed : unclosedSetting? {} = none := by decide +kernel
  have connecting : made = s'.connectAttached path { collection := name } there :=
    connect_of_attach accepted attached (journalRefusal?_eq_none journal steady unlogged) closed
  rw [connecting]
  simp only [Storage.connectAttached]
  generalize s'.modeFor there {} = mode
  have length : (s'.setWriteAhead there.key mode).databases.length = s'.databases.length := by
    simp [setWriteAhead]
  have blank : (s'.setWriteAhead there.key mode).database there.key = ⟨mode = .wal, []⟩ := by
    rw [setWriteAhead, database_setDatabase, if_pos ⟨rfl, inside⟩, new]
    rfl
  rw [blank]
  obtain ⟨created, refused⟩ := @Database.createCollection_standard ⟨mode = .wal, []⟩ rfl name
  constructor
  · intro reserved
    obtain ⟨e, refusal⟩ := refused reserved
    exact ⟨e, by simp only [standardTokenizer, refusal]⟩
  · intro free
    simp only [standardTokenizer, created free, steady, if_false]
    refine ⟨_, rfl, ?_⟩
    refine Database.has_created (created free) rfl ?_
    exact (database_setDatabase _ _ _ _).trans (if_pos ⟨rfl, length ▸ inside⟩)

theorem absent_of_empty_tree : (ofDisk ⟨[], []⟩).Absent (.ofString "/d") where
  kept := isTopPath_d.isFilePath
  whole := by decide +kernel
  free := by
    have free : (ofDisk ⟨[], []⟩).disk.node? [[100]] = none := rfl
    exact ⟨[[100]], isTopPath_d.databasePlace?_eq (by simp [free]), free⟩

end Storage

end TextArchive.Store
