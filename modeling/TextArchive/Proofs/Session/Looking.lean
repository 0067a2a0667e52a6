import TextArchive.Command.Answer
import TextArchive.Proofs.File.Absolute
import TextArchive.Proofs.Session.Attaching

/-!
Looking for a store that exists. A connection to it is made only where a file keeps a database with
a table of exactly that name. Looking makes no file, no database and no table, so the same question
gets the same answer again.
-/

set_option autoImplicit false
set_option relaxedAutoImplicit false

namespace TextArchive

open TextArchive.Command
open TextArchive.File (Content Disk Location Name Node Path)
open TextArchive.Ingest
open TextArchive.Store (Connection Database Medium Storage StoreError checkName)

namespace File.Disk

/-- Trees that agree but for what is in their files. -/
structure AgreeInKind (d d' : Disk) : Prop where
  workingDirectory : d'.workingDirectory = d.workingDirectory
  nodes : ∀ l, d'.node? l = d.node? l ∨ ∃ held held', d.node? l = some (.file held) ∧
    d'.node? l = some (.file held')

namespace AgreeInKind

variable {d d' : Disk} (agree : AgreeInKind d d')
include agree

theorem directory_iff (l : Location) : d'.node? l = some .directory ↔ d.node? l = some .directory :=
    by
  rcases agree.nodes l with same | ⟨held, held', there, there'⟩
  · rw [same]
  · simp [there, there']

private theorem turn (place : Location) (name : Name) : d'.turn place name = d.turn place name := by
  simp only [Disk.turn, ne_eq, agree.directory_iff]
  rcases agree.nodes (place ++ [name]) with same | ⟨held, held', there, there'⟩
  · rw [same]
  · simp only [there, there']

private theorem descend (last : LastSegment) (links : Nat) (place : Location)
    (segments : List Name) :
    d'.descend last links place segments = d.descend last links place segments := by
  induction links, place, segments using descend_induction d with
  | nil links place => simp
  | cons links place name rest on link =>
    rw [descend_cons, descend_cons, agree.turn]
    cases turned : d.turn place name with
    | refused e => rfl
    | missing next => rfl
    | link next target =>
      cases links with
      | zero => rfl
      | succ fewer => simp only [link fewer next target rfl turned]
    | on next => exact on next turned

theorem resolve (p : Path) : d'.resolve p = d.resolve p := by
  simp only [Disk.resolve, locate_eq, agree.workingDirectory, agree.descend]

private theorem isFile (p : Path) : d'.isFile p = d.isFile p := by
  unfold Disk.isFile lookUp
  rw [agree.resolve]
  cases d.resolve p with
  | error e => rfl
  | ok l =>
    rcases agree.nodes l with same | ⟨held, held', there, there'⟩
    · simp only [same]
    · simp only [there, there', Option.elim_some]
      rfl

private theorem follow (links : Nat) (place : Location) (segments : List Name) :
    Storage.follow d' links place segments = Storage.follow d links place segments := by
  -- a link makes the way longer again, but leaves fewer links to follow
  induction links using Nat.strongRecOn generalizing place segments with
  | _ links fewer =>
    induction segments generalizing place with
    | nil => rw [Storage.follow, Storage.follow]
    | cons name rest ih =>
      have passes : (d'.node? place).all (· = .directory) = (d.node? place).all (· = .directory) := by
        rcases agree.nodes place with same | ⟨held, held', there, there'⟩
        · rw [same]
        · simp [there, there']
      rw [Storage.follow, Storage.follow]
      simp only [ih, passes]
      rcases agree.nodes (place ++ [name]) with same | ⟨held, held', there, there'⟩
      · rw [same]
        cases links with
        | zero => rfl
        | succ n => simp only [fewer n (Nat.lt_succ_self n)]
      · simp only [there, there']

theorem databasePlace?_eq (p : Path) : Storage.databasePlace? d' p = Storage.databasePlace? d p :=
    by
  simp only [Storage.databasePlace?, agree.follow, agree.workingDirectory, agree.directory_iff]

theorem hasRoom (place : Location) : Storage.hasRoom d' place = Storage.hasRoom d place := by
  rcases agree.nodes place with same | ⟨held, held', there, there'⟩
  · rw [Storage.hasRoom, same, Storage.hasRoom]
  · simp only [Storage.hasRoom, there, there', Option.isNone_some]

end AgreeInKind

end File.Disk

namespace Store.Storage

/-- The database in what stands at a place, or why it cannot be read. -/
def readAt (s : Storage) (path : Path) : Option Node → Except StoreError Database
  | some (.file (.stored key)) => .ok (s.database key)
  | some (.file (.bytes [])) => .ok .empty
  | some (.file (.bytes (_ :: _))) => .error .notADatabase
  | some .unreadable => .error .unreadable
  | some .device => .ok .empty
  | _ => .error (.cannotOpen path.display)

/-- The database that a file at a path keeps, or why there is none. An empty file and a device keep
an empty one. -/
def databaseAt (s : Storage) (path : Path) : Except StoreError Database :=
  match path.bytes.findIdx? (· = 0) with
  | some position => .error (.zeroByte position)
  | none =>
    match databasePlace? s.disk path with
    | none => .error (.cannotOpen path.display)
    | some place => s.readAt path (s.disk.node? place)

/-- The database that is looked into for a path: a new one if the path is for none that a file
keeps. -/
def lookedInto (s : Storage) (path : Path) : Except StoreError Database :=
  if path = memoryPath ∨ path.bytes = [] then .ok .empty else s.databaseAt path

variable {s s' : Storage} {path : Path}

theorem lookedInto_eq_databaseAt (kept : IsFilePath path) : s.lookedInto path = s.databaseAt path :=
  if_neg (not_or.mpr kept)

private theorem lookedInto_eq_empty (nowhere : ¬ IsFilePath path) :
    s.lookedInto path = .ok .empty :=
  if_pos (by simpa only [IsFilePath, ne_eq, ← not_or, not_not] using nowhere)

/-- A storage in which nothing has been made and nothing changed: every place shows the same, and
the databases are as they were. There may be new databases without tables. -/
structure Untouched (s s' : Storage) : Prop where
  workingDirectory : s'.disk.workingDirectory = s.disk.workingDirectory
  nodes : ∀ l, (s'.disk.node? l).map s'.shownNode = (s.disk.node? l).map s.shownNode
  databases : ∀ key, s'.database key = s.database key

private theorem database_eq_empty {db : Database} (blank : isBlank db = true) : db = .empty := by
  obtain ⟨writeAhead, tables⟩ := db
  simpa [isBlank, Database.empty] using blank

private theorem readAt_shown (s : Storage) (path : Path) (node : Option Node) :
    s.readAt path (node.map s.shownNode) = s.readAt path node := by
  rcases node with _ | node
  · rfl
  · cases node with
    | file held =>
      cases held with
      | bytes bytes => rfl
      | stored key =>
        simp only [Option.map_some, shownNode]
        split
        · rename_i blank
          simp only [readAt, database_eq_empty blank]
        · rfl
    | _ => rfl

namespace Untouched

private theorem refl (s : Storage) : Untouched s s :=
  ⟨rfl, fun _ => rfl, fun _ => rfl⟩

variable (untouched : Untouched s s')
include untouched

private theorem agreeInKind : s.disk.AgreeInKind s'.disk where
  workingDirectory := untouched.workingDirectory
  nodes := by
    intro l
    have same := untouched.nodes l
    cases there : s.disk.node? l with
    | none =>
      rw [there] at same
      exact .inl (Option.map_eq_none_iff.mp same)
    | some node =>
      rw [there] at same
      obtain ⟨node', there', looks⟩ := Option.map_eq_some_iff.mp same
      rw [there']
      cases node with
      | file held =>
        cases node' with
        | file held' => exact .inr ⟨held, held', rfl, rfl⟩
        | _ => cases held <;> simp [shownNode] at looks
      | _ =>
        left
        cases node' with
        | file held' => cases held' <;> simp [shownNode] at looks
        | _ => exact congrArg some looks

private theorem databaseAt (path : Path) : s'.databaseAt path = s.databaseAt path := by
  have reads : ∀ node, s'.readAt path node = s.readAt path node := by
    intro node
    unfold readAt
    simp only [untouched.databases]
  unfold Storage.databaseAt
  rw [untouched.agreeInKind.databasePlace?_eq]
  split
  · rfl
  split
  · rfl
  rename_i place _
  rw [← s'.readAt_shown, untouched.nodes place, reads, readAt_shown]

private theorem lookedInto (path : Path) : s'.lookedInto path = s.lookedInto path := by
  simp only [Storage.lookedInto, untouched.databaseAt]

end Untouched

private theorem untouched_add (s : Storage) (medium : Medium) : Untouched s (s.add medium).2 where
  workingDirectory := rfl
  nodes l := by
    have same : (s.add medium).2.shownNode = s.shownNode := by
      funext node
      simp only [shownNode, database_add]
    rw [same]
    rfl
  databases := s.database_add medium

private theorem untouched_addAt {place : Location}
    (there : s.disk.node? place = some (.file (.bytes []))) :
    Untouched s (s.addAt place).2 where
  workingDirectory := rfl
  nodes l := by
    have databases : ∀ key, (s.addAt place).2.database key = s.database key := s.database_add .file
    have same : (s.addAt place).2.shownNode = s.shownNode := by
      funext node
      simp only [shownNode, databases]
    have new : s.database s.databases.length = .empty := by simp [Storage.database]
    rw [same]
    show ((s.disk.put place (.file (.stored s.databases.length))).node? l).map s.shownNode = _
    rw [Disk.node?_put (place_ne_nil_of_free (.inr there))]
    split
    · rename_i here
      rw [here, there]
      simp only [Option.map_some, shownNode, new]
      rfl
    · rfl
  databases := s.database_add .file

/-- A storage untouched with the connections that there were, so that the files beside databases are
there as well. -/
structure Unnoticed (s s' : Storage) : Prop extends Untouched s s' where
  connected : s'.connected = s.connected
  shown : (s.disk.entries.map (·.1)).Nodup → ∀ l, s'.shown.node? l = s.shown.node? l

private theorem Unnoticed.refl (s : Storage) : Unnoticed s s :=
  ⟨.refl s, rfl, fun _ _ => rfl⟩

/-- What shows itself is what stands at a place, or else a file beside a database. -/
theorem node?_shown_or (s : Storage) {l : Location} (below : l ≠ []) :
    s.shown.node? l = ((s.disk.node? l).map s.shownNode).or
      ((((s.disk.entries.flatMap s.sideFiles).filter fun side => hasRoom s.disk side.1).find? (·.1 = l)).map (·.2)) := by
  have inside : l.isEmpty = false := by simpa using below
  simp only [Disk.node?, inside, Bool.false_eq_true, if_false, find?_shown, Option.map_or, Option.map_map]
  rfl

private theorem Untouched.node?_shown (untouched : Untouched s s')
    (sides : s'.disk.entries.flatMap s'.sideFiles = s.disk.entries.flatMap s.sideFiles)
    (l : Location) :
    s'.shown.node? l = s.shown.node? l := by
  by_cases below : l = []
  · simp [below, Disk.node?]
  rw [node?_shown_or s' below, node?_shown_or s below, untouched.nodes, sides]
  simp only [untouched.agreeInKind.hasRoom]

private theorem flatMap_sideFiles_filter (s : Storage) {entries : List (Location × Node)}
    {place : Location} (bare : ∀ entry ∈ entries, entry.1 = place → s.sideFiles entry = []) :
    (entries.filter (·.1 ≠ place)).flatMap s.sideFiles = entries.flatMap s.sideFiles := by
  induction entries with
  | nil => rfl
  | cons entry entries ih =>
    obtain ⟨first, others⟩ := List.forall_mem_cons.mp bare
    by_cases here : entry.1 = place
    · rw [List.filter_cons_of_neg (by simpa using here), ih others, List.flatMap_cons, first here, List.nil_append]
    · rw [List.filter_cons_of_pos (by simpa using here), List.flatMap_cons, List.flatMap_cons, ih others]

private theorem unnoticed_add (s : Storage) (medium : Medium) : Unnoticed s (s.add medium).2 where
  toUntouched := s.untouched_add medium
  connected := rfl
  shown _ l := by
    refine (s.untouched_add medium).node?_shown ?_ l
    have same : (s.add medium).2.sideFiles = s.sideFiles := by
      funext entry
      unfold sideFiles
      simp only [database_add]
      rfl
    rw [same]
    rfl

private theorem unnoticed_addAt {place : Location}
    (there : s.disk.node? place = some (.file (.bytes []))) :
    Unnoticed s (s.addAt place).2 where
  toUntouched := untouched_addAt there
  connected := rfl
  shown once l := by
    refine (untouched_addAt there).node?_shown ?_ l
    have same : (s.addAt place).2.sideFiles = s.sideFiles := by
      funext entry
      have databases : ∀ key, (s.addAt place).2.database key = s.database key :=
        s.database_add .file
      unfold sideFiles
      simp only [databases]
      rfl
    have new : s.database s.databases.length = .empty := by simp [Storage.database]
    have entries : (s.addAt place).2.disk.entries =
        s.disk.entries.filter (·.1 ≠ place) ++ [(place, .file (.stored s.databases.length))] := rfl
    have none_beside : s.sideFiles (place, .file (.stored s.databases.length)) = [] := by
      simp [sideFiles, new, Database.empty]
    rw [same, entries, List.flatMap_append, List.flatMap_singleton, none_beside, List.append_nil]
    refine flatMap_sideFiles_filter s fun entry member here => ?_
    have listed : (place, .file (.bytes [])) ∈ s.disk.entries :=
      Disk.mem_of_node? there (place_ne_nil_of_free (.inr there))
    have empty : entry = (place, .file (.bytes [])) :=
      List.inj_on_of_nodup_map once member listed here
    rw [empty]
    rfl

private theorem attach_nowhere (nowhere : ¬ IsFilePath path) (mayCreate : Bool) :
    ∃ medium, s.attach path mayCreate = .ok (s.add medium) := by
  by_cases memory : path = memoryPath
  · subst memory
    have whole : memoryPath.bytes.findIdx? (· = 0) = none := by decide +kernel
    exact ⟨.memory, by simp only [Storage.attach, whole, if_true]⟩
  · have empty : path.bytes = [] := by
      by_contra filled
      exact nowhere ⟨memory, filled⟩
    exact ⟨.temporary, by simp [Storage.attach, memory, empty]⟩

private theorem attach_existing (s : Storage) (path : Path) :
    match s.attach path false with
    | .error e => IsFilePath path ∧ s.lookedInto path = .error e
    | .ok (attached, s') =>
      s.lookedInto path = .ok (s'.database attached.key) ∧ Unnoticed s s' := by
  by_cases kept : IsFilePath path
  swap
  · obtain ⟨medium, attached⟩ := attach_nowhere (s := s) kept false
    have new : (s.add medium).2.database (s.add medium).1.key = .empty := by
      simp [add, Storage.database]
    rw [attached, lookedInto_eq_empty kept]
    exact ⟨congrArg _ new.symm, s.unnoticed_add medium⟩
  have filled : path.bytes.isEmpty = false := by simpa using kept.2
  rw [lookedInto_eq_databaseAt kept]
  unfold Storage.attach databaseAt
  cases path.bytes.findIdx? (· = 0) with
  | some position => exact ⟨kept, rfl⟩
  | none =>
    simp only [kept.1, filled, Bool.false_eq_true, if_false]
    cases databasePlace? s.disk path with
    | none => exact ⟨kept, rfl⟩
    | some place =>
      dsimp only
      cases there : s.disk.node? place with
      | none => exact ⟨kept, rfl⟩
      | some node =>
        cases node with
        | file held =>
          cases held with
          | stored key => exact ⟨rfl, .refl s⟩
          | bytes bytes =>
            cases bytes with
            | nil =>
              have new : (s.addAt place).2.database (s.addAt place).1.key = .empty := by
                simp [addAt, add, Storage.database]
              exact ⟨congrArg _ new.symm, unnoticed_addAt there⟩
            | cons byte bytes => exact ⟨kept, rfl⟩
        | device =>
          have new : (s.add .device).2.database (s.add .device).1.key = .empty := by
            simp [add, Storage.database]
          exact ⟨congrArg _ new.symm, s.unnoticed_add .device⟩
        | _ => exact ⟨kept, rfl⟩

/-- Why no connection to an existing collection can be made, if there is a reason: the first one
counts. -/
def lookingRefusal? (s : Storage) (path : Path) (collection : String) : Option IngestError :=
  match checkName collection with
  | .error e => some (.invalidArgument e)
  | .ok () =>
    match s.lookedInto path with
    | .error e => some (.storeUnavailable path e)
    | .ok db => if db.hasTable collection then none else some (.collectionNotFound path collection)

private theorem Untouched.lookingRefusal? (untouched : Untouched s s') (path : Path)
    (collection : String) :
    s'.lookingRefusal? path collection = s.lookingRefusal? path collection := by
  simp only [Storage.lookingRefusal?, untouched.lookedInto]

private theorem connectExisting_cases (s : Storage) (path : Path) (collection : String) :
    match s.lookingRefusal? path collection with
    | some e => ∃ s', Unnoticed s s' ∧ s.connectExisting path collection = .failed s' e
    | none => ∃ s' c, Unnoticed s s' ∧ s.lookedInto path = .ok (s'.database c.key) ∧
    c.collection = collection ∧
        s.connectExisting path collection =
        .still { s' with connected := c.key :: s'.connected } (.ok c) := by
  have looked := s.attach_existing path
  unfold lookingRefusal? connectExisting
  cases checkName collection with
  | error e => exact ⟨s, .refl s, rfl⟩
  | ok _ =>
    cases found : s.attach path false with
    | error e =>
      rw [found] at looked
      rw [looked.2]
      exact ⟨s, .refl s, rfl⟩
    | ok led =>
      obtain ⟨attached, s'⟩ := led
      rw [found] at looked
      obtain ⟨database, unnoticed⟩ := looked
      rw [database]
      by_cases has : (s'.database attached.key).hasTable collection = true
      · simp only [has, if_true]
        exact ⟨s', ⟨attached.key, attached.medium, path, collection, none,
          .unasked (s'.currentMode attached)⟩, unnoticed, rfl, rfl, rfl⟩
      · simp only [has]
        exact ⟨s', unnoticed, rfl⟩

end Store.Storage

open Store.Storage

def Command.SearchTask.resultIn (task : SearchTask) (db : Database) : Result :=
  match (searchAfter 0 db task.collection task.query task.topK).1 with
  | .ok hits => .found hits task.json
  | .error e => .failed (.search e)

/-- A search goes unnoticed, and what comes of it depends on what its path shows and leads to. -/
theorem Command.answerSearch_cases (s : Storage) (task : SearchTask) :
    let answered := answerSearch s task
    Unnoticed s answered.storage ∧
      match s.shown.isFile task.db, s.lookingRefusal? task.db task.collection with
      | false, _ => answered.result = .failed (.noDatabase task.db)
      | true, some e => answered.result = .failed (.refused e)
      | true, none => ∃ db, s.lookedInto task.db = .ok db ∧ answered.result = task.resultIn db := by
  have cases := s.connectExisting_cases task.db task.collection
  unfold answerSearch
  cases s.shown.isFile task.db with
  | false => exact ⟨.refl s, rfl⟩
  | true =>
    cases refusal : s.lookingRefusal? task.db task.collection with
    | some e =>
      rw [refusal] at cases
      obtain ⟨s', unnoticed, failed⟩ := cases
      rw [failed]
      exact ⟨unnoticed, rfl⟩
    | none =>
      rw [refusal] at cases
      obtain ⟨s', c, unnoticed, database, collection, made⟩ := cases
      rw [made]
      have left : ({ s' with connected := c.key :: s'.connected } : Storage).disconnect c = s' := by
        simp [Store.Storage.disconnect]
      refine ⟨?_, s'.database c.key, database, ?_⟩
      · rw [← left] at unnoticed
        exact unnoticed
      · simp only [SearchTask.resultIn, ← collection]
        rfl

namespace Store.Storage

variable {s s' : Storage}

private theorem Unnoticed.answerSearch_result (unnoticed : Unnoticed s s')
    (once : (s.disk.entries.map (·.1)).Nodup)
    (task : SearchTask) : (answerSearch s' task).result = (answerSearch s task).result := by
  have shown : s.shown.AgreeInKind s'.shown := ⟨unnoticed.workingDirectory,
    fun l => .inl (unnoticed.shown once l)⟩
  obtain ⟨-, before⟩ := answerSearch_cases s task
  obtain ⟨-, after⟩ := answerSearch_cases s' task
  rw [shown.isFile, unnoticed.lookingRefusal?, unnoticed.lookedInto] at after
  cases file : s.shown.isFile task.db with
  | false =>
    rw [file] at before after
    exact after.trans before.symm
  | true =>
    cases refusal : s.lookingRefusal? task.db task.collection with
    | some e =>
      rw [file, refusal] at before after
      exact after.trans before.symm
    | none =>
      rw [file, refusal] at before after
      obtain ⟨db, database, result⟩ := before
      obtain ⟨db', database', result'⟩ := after
      obtain rfl : db = db' := Except.ok.inj (database.symm.trans database')
      exact result'.trans result.symm

end Store.Storage

end TextArchive
