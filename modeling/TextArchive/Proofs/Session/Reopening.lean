import TextArchive.Command.Answer
import TextArchive.Proofs.Ingest.Scanning
import TextArchive.Proofs.Session.Opening
import TextArchive.Proofs.Session.Running
import TextArchive.Proofs.Store.Spelling

/-!
Opening stores that exist. A store that has been opened, and made if it was missing, can be opened
as an existing one, if its collection is asked for in the spelling in which it is stored. Whoever
makes stores takes any other spelling for the same name; whoever looks for them does not.
-/

set_option autoImplicit false
set_option relaxedAutoImplicit false

namespace TextArchive

open TextArchive.Command
open TextArchive.File (Disk Node Path)
open TextArchive.Ingest
open TextArchive.Store (Attached Config Connection Database Engine Storage)

namespace Store

namespace Storage

/-- A path of a database in a file that leads there also when the file has been made: it does not
walk over the file as if it were a directory. -/
structure IsOrdinary (s : Storage) (path : Path) : Prop where
  kept : IsFilePath path
  stays : ∀ place content, place ≠ [] → databasePlace? s.disk path = some place →
    databasePlace? (s.disk.put place (.file content)) path = some place

section Plain

variable {disk : Disk} (unlinked : ∀ l target, disk.node? l ≠ some (.link target))
include unlinked

private theorem unlinked_put {place : File.Location} (below : place ≠ []) (content : File.Content)
    (l : File.Location) (target : Text.Utf8.Bytes) :
    (disk.put place (.file content)).node? l ≠ some (.link target) := by
  rw [Disk.node?_put below]
  split
  · simp
  · exact unlinked l target

private theorem length_of_leads {links : Nat} {l target : File.Location} {segments : List File.Name}
    (down : ∀ name ∈ segments, name ≠ File.above) (leads : Leads disk links l segments target) :
    l.length + (segments.filter (· ≠ File.here)).length = target.length := by
  induction leads with
  | arrived => rfl
  | stays _ ih => simpa using ih (List.forall_mem_cons.mp down).2
  | rises => exact absurd rfl (List.forall_mem_cons.mp down).1
  | link _ there => exact absurd there (unlinked _ _)
  | down passable _ _ ih =>
    have longer := ih (List.forall_mem_cons.mp down).2
    rw [List.length_append, List.length_singleton] at longer
    rw [List.filter_cons_of_pos (by simpa using passable.moves), List.length_cons, ← longer,
      Nat.add_assoc, Nat.add_comm 1]

private theorem leads_put_of_down {links : Nat} {l place : File.Location}
    {segments : List File.Name} (content : File.Content) (below : place ≠ [])
    (down : ∀ name ∈ segments, name ≠ File.above) (leads : Leads disk links l segments place) :
    Leads (disk.put place (.file content)) links l segments place := by
  induction leads with
  | arrived => exact .arrived
  | stays _ ih => exact .stays (ih below (List.forall_mem_cons.mp down).2)
  | rises => exact absurd rfl (List.forall_mem_cons.mp down).1
  | link _ there => exact absurd there (unlinked _ _)
  | @down links l place name rest passable _ on ih =>
    have others := (List.forall_mem_cons.mp down).2
    have longer := length_of_leads unlinked others on
    have apart : l ≠ place := by
      rintro rfl
      rw [List.length_append, List.length_singleton] at longer
      omega
    refine .down { passable with through := ?_ } (unlinked_put unlinked below content _)
      (ih below others)
    rw [Disk.node?_put below, if_neg apart]
    exact passable.through

/-- In a tree without links every path without steps upwards that leads to a file is ordinary. -/
theorem isOrdinary_of_down {s : Storage} (same : s.disk = disk) {path : Path}
    (kept : IsFilePath path)
    (down : ∀ name ∈ path.segments, name ≠ File.above) : s.IsOrdinary path := by
  subst same
  refine ⟨kept, fun place content top led => ?_⟩
  rw [databasePlace?_eq_some_iff] at led ⊢
  obtain ⟨leads, short, directory⟩ := led
  refine ⟨leads_put_of_down unlinked content top down leads, short, ?_⟩
  have apart : place.dropLast ≠ place := by
    intro same
    have lengths := congrArg List.length same
    have positive := List.length_pos_iff.mpr top
    simp only [List.length_dropLast] at lengths
    omega
  rw [Disk.node?_put top, if_neg apart]
  exact directory

end Plain

private theorem IsTopPath.isOrdinary {s : Storage} {path : Path} {name : File.Name}
    (top : IsTopPath path name)
    (unlinked : ∀ target, s.disk.node? [name] ≠ some (.link target)) : s.IsOrdinary path := by
  refine ⟨top.isFilePath, fun place content below led => ?_⟩
  rw [top.databasePlace?_eq unlinked] at led
  cases led
  refine top.databasePlace?_eq fun target link => ?_
  rw [Disk.node?_put below, if_pos rfl] at link
  cases link

variable {s : Storage} {path : Path} {config : Config} {c : Connection}

private theorem of_connect_ok (made : (s.connect path config).result = .ok c) :
    Name.isName config.collection = true ∧ ∃ attached s', s.attach path true = .ok (attached, s') ∧
      s.connect path config = s'.connectAttached path config attached := by
  unfold Storage.connect at made ⊢
  split at made
  · cases made
  rename_i valid
  have named : Name.isName config.collection = true := by
    by_contra refused
    simp [Config.validate, refused] at valid
  split at made
  · cases made
  rename_i attached s' found
  split at made
  · cases made
  split at made
  · cases made
  exact ⟨named, attached, s', found, rfl⟩

private theorem of_connectAttached_ok {attached : Attached}
    (made : (s.connectAttached path config attached).result = .ok c) :
    c.key = attached.key ∧ attached.medium ≠ .device ∧
      (s.connectAttached path config attached).state.disk = s.disk := by
  unfold Storage.connectAttached at made ⊢
  simp only at made ⊢
  split at made
  · cases made
  split at made
  · cases made
  rename_i steady
  cases made
  rw [if_neg steady]
  exact ⟨rfl, steady, rfl⟩

private theorem attach_again (ordinary : s.IsOrdinary path) {mayCreate : Bool} {attached : Attached}
    {s' : Storage} (found : s.attach path mayCreate = .ok (attached, s'))
    (steady : attached.medium ≠ .device) {t : Storage} (same : t.disk = s'.disk)
    (mayCreate' : Bool) : t.attach path mayCreate' = .ok (⟨attached.key, .file⟩, t) := by
  have whole : path.bytes.findIdx? (· = 0) = none := by
    cases position : path.bytes.findIdx? (· = 0) with
    | none => rfl
    | some n => simp [Storage.attach, position] at found
  have leads : ∃ place, databasePlace? t.disk path = some place ∧
      t.disk.node? place = some (.file (.stored attached.key)) := by
    rw [same]
    cases attaches_of_attach found with
    | fleeting _ _ nowhere => exact absurd ordinary.kept nowhere
    | device => exact absurd rfl steady
    | @found place key _ leads there => exact ⟨place, leads, there⟩
    | @made place _ leads free =>
      refine ⟨place, ordinary.stays place _ (place_ne_nil_of_free free) leads, ?_⟩
      show (s.disk.put place _).node? place = _
      rw [Disk.node?_put (place_ne_nil_of_free free), if_pos rfl]
      rfl
  obtain ⟨place, leads, there⟩ := leads
  exact attach_stored whole ordinary.kept leads there mayCreate'

private theorem created_of_connect (known : ∀ key ∈ s.disk.storedKeys, key < s.databases.length)
    (made : (s.connect path config).result = .ok c) :
    ∃ writeAhead,
    ({ s.database c.key with writeAhead } : Database).createCollection config.collection
      config.tokenizer = .ok ((s.connect path config).state.database c.key) := by
  obtain ⟨attached, s', found, key, -, -, -, -, -, writeAhead, created⟩ :=
    connected_of_ok known made
  rw [(attaches_of_attach found).database] at created
  exact ⟨writeAhead, key ▸ created⟩

private theorem connectExisting_again (ordinary : s.IsOrdinary path)
    (made : (s.connect path config).result = .ok c) {t : Storage}
    (disk : t.disk = (s.connect path config).state.disk) :
    t.connectExisting path config.collection =
      if (t.database c.key).hasTable config.collection then
        .still { t with connected := c.key :: t.connected }
          (.ok ⟨c.key, .file, path, config.collection, none,
            .unasked (t.currentMode ⟨c.key, .file⟩)⟩)
      else .failed t (.collectionNotFound path config.collection) := by
  obtain ⟨named, attached, s', found, connecting⟩ := of_connect_ok made
  rw [connecting] at made disk
  obtain ⟨key, steady, unchanged⟩ := of_connectAttached_ok made
  have again := attach_again ordinary found steady (disk.trans unchanged) false
  rw [← key] at again
  simp only [Storage.connectExisting, checkName, named, if_true, again]

end Storage

end Store

namespace Session

section Reopens

variable [Engine]

private theorem of_ingested {s : Storage} {task : IngestTask} {report : Report}
    (ingested : (answerIngest s task).result = .ingested report) :
    ∃ weights,
      (Ingestion.run { task.options with weights } task.root task.db task.config s).result =
        .ok report ∧
      (answerIngest s task).storage =
        (Ingestion.run { task.options with weights } task.root task.db task.config s).state := by
  unfold answerIngest at ingested ⊢
  split at ingested
  · cases ingested
  rename_i weights given
  refine ⟨weights, ?_⟩
  simp only at ingested ⊢
  split at ingested
  · rename_i report' ran
    cases ingested
    simp only [ran]
    exact ⟨trivial, trivial⟩
  · cases ingested

/-- A store that has been opened and closed can be opened as an existing one just if its collection,
in case there was something of the name before, is asked for in the spelling in which that is
stored. Then it has the same count, rank and answers, and otherwise the collection is reported
missing. Nor is it reported missing by a search of what the program has ingested into a collection
so spelled. -/
theorem reopens_iff_spelled {session : Session} (reachable : session.Reachable) {path : Path}
    (ordinary : session.storage.IsOrdinary path) (config : Config) :
    let s := session.storage
    let name := config.collection
    let opened := s.connect path config
    (∀ c, opened.result = .ok c →
      let again := (opened.state.disconnect c).connectExisting path name
      let db := opened.state.database c.key
      ((s.database c.key).Spelled name → ∃ c', again.result = .ok c' ∧
        let db' := again.state.database c'.key
        db'.count name = db.count name ∧ db'.rankConfig name = db.rankConfig name ∧
          ∀ cursors text topK, searchAfter cursors db' name text topK =
            searchAfter cursors db name text topK) ∧
      (¬ (s.database c.key).Spelled name → again.result = .error (.collectionNotFound path name))) ∧
    ∀ task : IngestTask, task.db = path → task.config = config → ∀ report,
      (answerIngest s task).result = .ingested report → ∃ c, opened.result = .ok c ∧
        ((s.database c.key).Spelled name → ∀ search : SearchTask,
          search.db = path → search.collection = name →
          (answerSearch (answerIngest s task).storage search).result ≠
            .failed (.refused (.collectionNotFound path name))) := by
  intro s name opened
  have known := reachable.sound.keeps.known
  have apart : ∀ key, (s.database key).Apart := reachable.of_kept Database.kept_apart .nil
  have there : ∀ c, opened.result = .ok c →
      ((opened.state.database c.key).hasTable name = true ↔ (s.database c.key).Spelled name) := by
    intro c made
    obtain ⟨writeAhead, created⟩ := Store.Storage.created_of_connect known made
    have switched : Database.Apart { s.database c.key with writeAhead } := apart c.key
    exact switched.hasTable_iff_spelled created
  refine ⟨fun c made => ?_, fun task db configured report ingested => ?_⟩
  · intro again db
    have found : again = _ := Store.Storage.connectExisting_again ordinary made
      (t := opened.state.disconnect c) rfl
    constructor
    · intro spelled
      have has : ((opened.state.disconnect c).database c.key).hasTable name = true :=
        (there c made).mpr spelled
      rw [if_pos has] at found
      rw [found]
      exact ⟨_, rfl, rfl, rfl, fun _ _ _ => rfl⟩
    · intro other
      have lacks : ¬ ((opened.state.disconnect c).database c.key).hasTable name = true := fun has =>
        other ((there c made).mp has)
      rw [if_neg lacks] at found
      rw [found]
      rfl
  · subst db configured
    obtain ⟨weights, ran, storage⟩ := of_ingested ingested
    obtain ⟨positive, ⟨folder, found⟩, c, made⟩ := of_run_ok ran
    obtain ⟨-, state, -⟩ := run_eq positive found made
    refine ⟨c, made, fun spelled search at_path named => ?_⟩
    have has : ((answerIngest s task).storage.database c.key).hasTable name = true := by
      rw [storage, state]
      have before : (opened.state.database c.key).Apart ∧
        (opened.state.database c.key).hasTable name = true :=
        ⟨Database.kept_apart.connect (apart c.key) task.db task.config, (there c made).mpr spelled⟩
      exact ((Database.kept_hasTable name).ingestConnected before _ folder.items c).2
    have disk : (answerIngest s task).storage.disk = opened.state.disk := by
      rw [storage]
      exact (agree_run positive found made).1
    have again := Store.Storage.connectExisting_again ordinary made disk
    rw [if_pos has] at again
    unfold answerSearch
    rw [at_path, named, again]
    split
    · simp only [Outcome.still]
      split <;> simp
    · simp

end Reopens

/-- A folder of which no file is to be taken is ingested into a new database, and its collection is
found again. -/
theorem reopens_after_ingestion :
    let s := (start ⟨[([[114]], .directory)], []⟩).storage
    let path := Path.ofString "/d"
    let task : IngestTask :=
      { db := path, root := .ofString "/r", options := { maxFiles := some 0 },
        rankWeights := none, config := {} }
    s.IsOrdinary path ∧ ∃ c report, (s.connect path {}).result = .ok c ∧
      (s.database c.key).Spelled "documents" ∧
      (∃ c', (((s.connect path {}).state.disconnect c).connectExisting path "documents").result =
        .ok c') ∧
      (answerIngest s task).result = .ingested report ∧
      ∀ search : SearchTask, search.db = path → search.collection = "documents" →
        (answerSearch (answerIngest s task).storage search).result ≠
          .failed (.refused (.collectionNotFound path "documents")) := by
  intro s path task
  have unlinked : ∀ target, s.disk.node? [[100]] ≠ some (.link target) := by
    rw [show s.disk.node? [[100]] = none from rfl]
    simp
  have ordinary : s.IsOrdinary path := Storage.isTopPath_d.isOrdinary unlinked
  have absent : s.Absent path :=
    ⟨ordinary.kept, by decide +kernel, [[100]], Storage.isTopPath_d.databasePlace?_eq unlinked, rfl⟩
  obtain ⟨c, made, -⟩ :=
    (absent.connect (show Store.Name.isName "documents" = true by decide +kernel)).2
    (by decide +kernel)
  have nothing : ∀ key, (s.database key).find? "documents" = none := fun key => by rfl
  have spelled : (s.database c.key).Spelled "documents" := by
    intro found there
    rw [nothing] at there
    cases there
  have reachable := Reachable.start ⟨[([[114]], .directory)], []⟩ rfl
  have reached : s.shown.resolve (.ofString "/r") = .ok [[114]] := by cbv
  obtain ⟨folder, given, -⟩ := Folder.exists_ofPath reached (by decide +kernel)
  have leads := Storage.made_of_connect reachable.sound.keeps.known made
  have none_taken : ∀ tree, folder.records { maxFiles := some 0 } tree = [] := fun tree => by
    simp [Folder.records, firstFiles]
  have free : (StoreCall.insertBatch []).IsFree := StoreCall.isFree_of_size (by simp)
  obtain ⟨report, ran⟩ :=
    run_of_free (show 1 ≤ ({ maxFiles := some 0 } : Options).batchSize by decide) given made
    (by decide +kernel) (leads.collection ▸ leads.there (.inl (nothing _))) (none_taken _ ▸ free)
  have ran : (Ingestion.run { maxFiles := some 0 } (.ofString "/r") (.ofString "/d") {} s).result
    = .ok report := ran
  have ingested : (answerIngest s task).result = .ingested report := by
    simp only [answerIngest, weightsOf, task, path, ran]
  obtain ⟨existing, searched⟩ := reopens_iff_spelled reachable ordinary {}
  obtain ⟨c', again, -⟩ := (existing c made).1 spelled
  obtain ⟨c₂, made₂, found⟩ := searched task rfl rfl report ingested
  have same : c₂ = c := Except.ok.inj (made₂.symm.trans made)
  exact ⟨ordinary, c, report, made, spelled, ⟨c', again⟩, ingested, found (same ▸ spelled)⟩

/-- A collection that has been opened in another case than it is stored in is reported missing
afterwards. -/
theorem not_reopened_in_other_case :
    let s := Storage.ofDisk ⟨[], []⟩
    let path := Path.ofString "/d"
    let first := s.connect path { collection := "documents" }
    ∃ c, first.result = .ok c ∧ (first.state.disconnect c).IsOrdinary path ∧
      let second := (first.state.disconnect c).connect path { collection := "Documents" }
      ∃ c', second.result = .ok c' ∧
        ((second.state.disconnect c').connectExisting path "Documents").result =
        .error (.collectionNotFound path "Documents") := by
  intro s path first
  have free : s.disk.node? [[100]] = none := rfl
  have leads : Storage.databasePlace? s.disk path = some [[100]] :=
    Storage.isTopPath_d.databasePlace?_eq (by simp [free])
  have kept : Storage.IsFilePath path := Storage.isTopPath_d.isFilePath
  have whole : path.bytes.findIdx? (· = 0) = none := by decide +kernel
  have closed : Storage.unclosedSetting? {} = none := by decide +kernel
  have valid : ({ collection := "documents" } : Config).validate = .ok () := by rfl
  have connecting : first = (s.addAt [[100]]).2.connectAttached path { collection := "documents" }
    ⟨0, .file⟩ :=
    Storage.connect_of_attach valid (Storage.attach_missing whole kept leads free)
      (by decide +kernel) closed
  let t : Storage := ⟨⟨[([[100]], .file (.stored 0))], []⟩,
    [⟨true, [⟨"documents", .indexed (.empty "unicode61" .standard), []⟩]⟩], []⟩
  have made : first.result = .ok ⟨0, .file, path, "documents", some .wal, .asked .wal {}⟩ := by
    have made : first.result.toOption = some ⟨0, .file, path, "documents", some .wal,
      .asked .wal {}⟩ := by
      rw [connecting]
      decide +kernel
    cases result : first.result with
    | error e => simp [result, Except.toOption] at made
    | ok c => simpa [result, Except.toOption] using made
  have left : first.state.disconnect ⟨0, .file, path, "documents", some .wal,
    .asked .wal {}⟩ = t := by
    have databases : first.state.databases = t.databases := by
      rw [connecting]
      decide +kernel
    have connected : first.state.connected = [0] := by
      rw [connecting]
      decide +kernel
    have disk : first.state.disk = t.disk := by
      rw [connecting] at made ⊢
      exact (Store.Storage.of_connectAttached_ok made).2.2
    simp only [Storage.disconnect, databases, connected, disk]
    rfl
  refine ⟨_, made, ?_⟩
  rw [left]
  have there : t.disk.node? [[100]] = some (.file (.stored 0)) := by decide +kernel
  have unlinked : ∀ target, t.disk.node? [[100]] ≠ some (.link target) := by simp [there]
  have leads : Storage.databasePlace? t.disk path = some [[100]] :=
    Storage.isTopPath_d.databasePlace?_eq unlinked
  have ordinary : t.IsOrdinary path := Storage.isTopPath_d.isOrdinary unlinked
  have valid' : ({ collection := "Documents" } : Config).validate = .ok () := by rfl
  have connecting : t.connect path { collection := "Documents" } =
      t.connectAttached path { collection := "Documents" } ⟨0, .file⟩ :=
    Storage.connect_of_attach valid' (Storage.attach_stored whole kept leads there true)
      (by decide +kernel) closed
  have made : (t.connect path { collection := "Documents" }).result =
      .ok ⟨0, .file, path, "Documents", some .wal, .asked .wal {}⟩ := by
    rw [connecting]
    rfl
  refine ⟨ordinary, _, made, ?_⟩
  have again := Store.Storage.connectExisting_again ordinary made
    (t := (t.connect path { collection := "Documents" }).state.disconnect
      ⟨0, .file, path, "Documents", some .wal, .asked .wal {}⟩) rfl
  refine (congrArg (·.result) again).trans ?_
  rw [connecting]
  rfl

end Session

end TextArchive
