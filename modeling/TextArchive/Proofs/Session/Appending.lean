import TextArchive.Proofs.Ingest.Scanning
import TextArchive.Proofs.Session.AppendOnly
import TextArchive.Proofs.Session.Running

/-!
Runs append: whatever a collection holds, a run adds one row for each file that it takes, in the
order of the walk and numbered on from the last row, and running again adds the same rows once more.
-/

set_option autoImplicit false
set_option relaxedAutoImplicit false

namespace TextArchive

open TextArchive.File (Disk Location Path Visit Walk)
open TextArchive.File.Disk (Agree)
open TextArchive.File.Walk (ClearOf SameAt filesBelow)
open TextArchive.Ingest
open TextArchive.Store (Config Connection Database Engine Row Storage)

private theorem RecordBuilder.build_congr {d d' : Disk} {p : Path} (b : RecordBuilder)
    (workingDirectory : d'.workingDirectory = d.workingDirectory) (same : SameAt d d' p) :
    b.build d' p = b.build d p := by
  simp only [build, readText, Disk.read, sourcePathOf, same.2.1, same.2.2, workingDirectory]

namespace Ingest.Folder

variable {folder : Folder}

private theorem ofPath_agree {places : List Location} {d d' : Disk} (agree : Agree places d d')
    (path : Path) :
    ofPath d' path = ofPath d path := by
  simp only [ofPath, agree.isDirectory path, agree.workingDirectory]

private theorem live_of_mem_records {options : Options} {tree : Disk} {r : Record}
    (member : r ∈ folder.records options tree) : r.deletedAt = none := by
  obtain ⟨p, -, rfl⟩ := List.mem_map.mp member
  rfl

private theorem records_agree {places : List Location} {d d' : Disk} (options : Options)
    (agree : Agree places d d') (tidy : d.Tidy) (clear : ClearOf d folder.root places) :
    folder.records options d' = folder.records options d := by
  obtain ⟨files, same⟩ := Walk.filesBelow_agree agree tidy clear
  have first : firstFiles options.maxFiles (folder.items d') = firstFiles options.maxFiles
    (folder.items d) := by
    simp only [firstFiles, files_items, files]
  rw [records, records, first]
  refine List.map_congr_left fun p member => ?_
  have found : p ∈ filesBelow d folder.root := by
    rw [← files_items]
    unfold firstFiles at member
    split at member
    · exact member
    · exact List.mem_of_mem_take member
  rw [RecordBuilder.build_congr _ agree.workingDirectory (same p found)]

end Ingest.Folder

namespace Store

/-- Rows with those of further records, which are numbered on from the greatest number and not
deleted. -/
def Row.appended (rows : List Row) (records : List Record) : List Row :=
  rows ++ records.mapIdx fun n r =>
    ⟨(rows.map (·.rowid)).foldl max 0 + n + 1, r.title, r.sourcePath, r.content, r.tag, none⟩

private theorem Row.following_eq_appended (rows : List Row) {records : List Record}
    (live : ∀ r ∈ records, r.deletedAt = none) :
    following rows records = appended rows records := by
  refine congrArg (rows ++ ·) (List.ext_getElem (by simp [numberedFrom]) fun n _ _ => ?_)
  simp only [numberedFrom, List.getElem_mapIdx, ofRecord]
  rw [live _ (List.getElem_mem _)]
  simp only [Option.map_none, Row.mk.injEq, and_true]
  omega

end Store

namespace Store.Storage

variable {s b t b' : Storage} {path : Path} {config : Config} {c c' : Connection}

private theorem Made.again (made : Made s path config b c) (same : t.disk = b.disk)
    (again : Made t path config b' c')
    (known : ∀ key ∈ t.disk.storedKeys, key < t.databases.length) :
    (IsFilePath path → c'.key = c.key) ∧ (¬ IsFilePath path → t.database c'.key = .empty) ∧
      b'.filesOf c'.key ⊆ b.filesOf c.key := by
  obtain ⟨attached, s', attaches, -, key, disk, -⟩ := made.attaches
  obtain ⟨attached', t', attaches', steady, key', disk', -⟩ := again.attaches
  obtain ⟨unchanged, named⟩ := attaches.again (same.trans disk) attaches'
  have files : b'.disk = b.disk := disk'.trans (unchanged.trans same)
  have leads : IsFilePath path → attached'.key = attached.key := fun isFile =>
    named (attaches'.medium_of_isFilePath isFile steady)
  refine ⟨fun isFile => ?_, fun nowhere => ?_, ?_⟩
  · rw [← key', ← key, leads isFile]
  · rw [← key']
    cases attaches' with
    | fleeting medium => simp [add, database]
    | device => exact absurd rfl steady
    | found isFile | made isFile => exact absurd isFile nowhere
  · by_cases isFile : IsFilePath path
    · have equal : c'.key = c.key := by rw [← key', ← key, leads isFile]
      simp [filesOf, placesOf, files, equal]
    · have nowhere : b'.placesOf c'.key = [] := by
        rw [← key']
        cases attaches' with
        | fleeting medium =>
          refine List.map_eq_nil_iff.mpr (List.filter_eq_nil_iff.mpr fun entry member => ?_)
          rw [files, ← same] at member
          intro stored
          have bound := known _ (List.mem_filterMap.mpr ⟨entry, member, by simpa using stored⟩)
          simp [add] at bound
        | device => exact absurd rfl steady
        | found kept | made kept => exact absurd kept isFile
      simp [filesOf, nowhere]

end Store.Storage

namespace Session

section Run

variable [Engine]

private theorem rows_run_appended {s : Storage} {insertions : List Insertion}
    (keeps : s.Keeps insertions) {options : Options} {root path : Path} {config : Config}
    {folder : Folder} {c : Connection} {report : Report}
    (found : Folder.ofPath s.shown root = .ok folder)
    (made : (s.connect path config).result = .ok c)
    (before : (s.database c.key).find? config.collection = none ∨ (s.database c.key).IsCollection config.collection)
    (ran : (Ingestion.run options root path config s).result = .ok report) :
    let done := Ingestion.run options root path config s
    done.state.Keeps (insertions ++ runInsertions options root path config s) ∧
      (done.state.database c.key).IsCollection config.collection ∧
      (done.state.database c.key).rows config.collection =
        .ok (Row.appended (((s.database c.key).rows config.collection).toOption.getD [])
          (folder.records options (s.connect path config).state.shown)) := by
  intro done
  obtain ⟨positive, -, -⟩ := of_run_ok ran
  obtain ⟨-, state, -⟩ := run_eq positive found made
  have leads := Storage.made_of_connect keeps.known made
  have connects := keeps.connect path config
  have there := leads.there before
  have collection : (done.state.database c.key).IsCollection config.collection := by
    rw [← leads.collection] at there ⊢
    rw [show done.state = _ from state]
    exact
      ((connects.keeps.ingest (connects.known c made) options folder.items).2.databases c.key).collections _ there
  have rows := rows_run found made keeps.known (fun t here => by
    obtain ⟨u, indexing, also, kind⟩ := there
    cases also.symm.trans here
    exact Store.Table.adds_of_indexed ⟨indexing, kind⟩) ran
  refine ⟨(keeps.run options root path config).1, collection, ?_⟩
  rw [Store.Row.following_eq_appended _ fun r => Folder.live_of_mem_records] at rows
  obtain ⟨t, -, here, -⟩ := collection
  rw [← rows, StoredCollection.rows, Connection.stored, leads.collection, Database.rows, here]
  rfl

end Run

/-- A run that succeeds finds its folder and makes its connection (`of_run_ok`). If the name of its
collection is free or that of a collection, it adds one row for each of the files that the walk
through the folder finds, up to the limit: the old rows stay in front, the new ones are those of the
records built of the files, live and numbered on. The size of the batches makes no difference, and
running again over the same tree adds the same rows once more. It is supposed that the files do not
change during the run: those of the database are not below the folder, and no link below it leads to
them. -/
theorem run_appends [Engine] {session : Session} (reachable : session.Reachable) {options : Options}
    {root path : Path} {config : Config} {folder : Folder} {c : Connection} {report : Report}
    (found : Folder.ofPath session.storage.shown root = .ok folder)
    (made : (session.storage.connect path config).result = .ok c)
    (before : (session.storage.database c.key).find? config.collection = none ∨
      (session.storage.database c.key).IsCollection config.collection)
    (tidy : session.storage.shown.Tidy)
    (clear : ClearOf session.storage.shown folder.root
      ((session.storage.connect path config).state.filesOf c.key))
    (ran : (Ingestion.run options root path config session.storage).result = .ok report) :
    let s := session.storage
    let records := folder.records options s.shown
    let done := Ingestion.run options root path config s
    (done.state.database c.key).rows config.collection =
      .ok (Row.appended (((s.database c.key).rows config.collection).toOption.getD []) records) ∧
    (∀ size,
      let other := Ingestion.run { options with batchSize := size } root path config s
      ∀ report', other.result = .ok report' →
        (other.state.database c.key).rows config.collection =
          (done.state.database c.key).rows config.collection) ∧
    ∀ c', (done.state.connect path config).result = .ok c' →
      let again := Ingestion.run options root path config done.state
      (Storage.IsFilePath path → c'.key = c.key) ∧ ∀ report', again.result = .ok report' →
        (again.state.database c'.key).rows config.collection =
          .ok
            (Row.appended (((done.state.database c'.key).rows config.collection).toOption.getD []) records) := by
  intro s records done
  have keeps := reachable.sound.keeps
  have leads := Storage.made_of_connect keeps.known made
  have connecting := leads.agree keeps.known
  have same := Folder.records_agree options connecting tidy clear
  obtain ⟨kept, collection, rows⟩ := rows_run_appended keeps found made before ran
  rw [same] at rows
  refine ⟨rows, fun size => ?_, fun c' made' => ?_⟩
  · intro other report' ran'
    obtain ⟨-, -, rows'⟩ := rows_run_appended keeps found made before ran'
    rw [show folder.records { options with batchSize := size } (s.connect path config).state.shown = records from same]
      at rows'
    exact rows'.trans rows.symm
  · obtain ⟨positive, -, -⟩ := of_run_ok ran
    obtain ⟨disk, running⟩ := agree_run positive found made
    have leads' := Storage.made_of_connect kept.known made'
    obtain ⟨kept_key, new, places⟩ := leads.again disk leads' kept.known
    have tree := connecting.trans running
    have tree' := tree.trans ((leads'.agree kept.known).mono places)
    have found' : Folder.ofPath done.state.shown root = .ok folder := by
      rw [Folder.ofPath_agree tree]
      exact found
    have before' : (done.state.database c'.key).find? config.collection = none ∨
        (done.state.database c'.key).IsCollection config.collection := by
      by_cases isFile : Storage.IsFilePath path
      · rw [kept_key isFile]
        exact .inr collection
      · rw [new isFile]
        exact .inl rfl
    refine ⟨kept_key, fun report' ran' => ?_⟩
    obtain ⟨-, -, rows'⟩ := rows_run_appended kept found' made' before' ran'
    rwa [Folder.records_agree options tree' tidy clear] at rows'

/-- The first of two files goes into a new database beside the folder. -/
theorem run_appends_first_file :
    let tree : Disk := ⟨[([[114]], .directory), ([[114], [98]], .file (.bytes [104, 105])),
      ([[114], [97]], .file (.bytes [104]))], []⟩
    let options : Options := { batchSize := 1, maxFiles := some 1, tag := "t" }
    let s := (start tree).storage
    let done := Ingestion.run options (.ofString "/r") (.ofString "/d") {} s
    ∃ folder c, Folder.ofPath s.shown (.ofString "/r") = .ok folder ∧
      (s.connect (.ofString "/d") {}).result = .ok c ∧
      ((s.database c.key).find? "documents" = none ∨ (s.database c.key).IsCollection "documents") ∧
      s.shown.Tidy ∧
        ClearOf s.shown folder.root ((s.connect (.ofString "/d") {}).state.filesOf c.key) ∧
      (∃ report, done.result = .ok report) ∧
      (done.state.database c.key).rows "documents" = .ok [⟨1, "a", "/r/a", "h", "t", none⟩] := by
  intro tree options s done
  have shown : s.shown = tree := rfl
  have directory : tree.isDirectory (.ofString "/r") = true := by cbv
  have absolute : (File.Path.ofString "/r").absolute? tree.workingDirectory = some (.ofString "/r")
    := by decide +kernel
  have found : Folder.ofPath s.shown (.ofString "/r") = .ok ⟨.ofString "/r"⟩ := by
    simp only [Folder.ofPath, shown, directory, absolute]
    rfl
  have attached : s.attach (.ofString "/d") true = .ok (s.addAt [[100]]) := by
    have leads : Storage.databasePlace? s.disk (.ofString "/d") = some [[100]] := by cbv
    have free : s.disk.node? [[100]] = none := by decide +kernel
    have whole : (Path.ofString "/d").bytes.findIdx? (· = 0) = none := by decide +kernel
    have kept : Path.ofString "/d" ≠ Storage.memoryPath := by decide +kernel
    have filled : (Path.ofString "/d").bytes.isEmpty = false := by decide +kernel
    simp only [Storage.attach, whole, kept, filled, leads, free]
    rfl
  have connected : s.connect (.ofString "/d") {} =
      (s.addAt [[100]]).2.connectAttached (.ofString "/d") {} (s.addAt [[100]]).1 := by
    have valid : ({} : Config).validate = .ok () := by rfl
    have accepted : (s.addAt [[100]]).2.journalRefusal? (s.addAt [[100]]).1 {} = none := by
      decide +kernel
    exact Storage.connect_of_attach valid attached accepted (by decide +kernel)
  have key : (s.connect (.ofString "/d") {}).result.toOption.map (·.key) = some 0 := by
    rw [connected]
    decide +kernel
  have places : (s.connect (.ofString "/d") {}).state.filesOf 0 =
      [[[100]], [[100, 45, 119, 97, 108]], [[100, 45, 115, 104, 109]]] := by
    rw [connected]
    decide +kernel
  cases made : (s.connect (.ofString "/d") {}).result with
  | error e => simp [made, Except.toOption] at key
  | ok c =>
    have here : c.key = 0 := by simpa [made, Except.toOption] using key
    have before : (s.database c.key).find? "documents" = none := by rfl
    have tidy : s.shown.Tidy := by decide +kernel
    have clear : ClearOf s.shown (.ofString "/r")
      ((s.connect (.ofString "/d") {}).state.filesOf c.key) := by
      have resolved : s.shown.resolve (.ofString "/r") = .ok [[114]] := by cbv
      rw [here, places]
      constructor
      · intro root reached
        rw [resolved] at reached
        cases reached
        decide
      · intro root names target _ link
        rw [shown, Disk.node?] at link
        split at link
        · cases link
        · obtain ⟨entry, at_place, is_link⟩ := Option.map_eq_some_iff.mp link
          have listed := List.mem_of_find?_eq_some at_place
          simp only [tree, List.mem_cons, List.not_mem_nil, or_false] at listed
          rcases listed with rfl | rfl | rfl <;> cases is_link
    have reachable : (start tree).Reachable := Reachable.start tree rfl
    have leads := Storage.made_of_connect reachable.sound.keeps.known made
    have taken : Folder.records ⟨.ofString "/r"⟩ options tree =
      [⟨"a", "/r/a", "h", "t", none⟩] := by
      have files : firstFiles options.maxFiles (Folder.items ⟨.ofString "/r"⟩ tree)
        = [.ofString "/r/a"] := by cbv
      have kept : RecordBuilder.sourcePathOf tree (.ofString "/r/a") = .ofString "/r/a" := by cbv
      have read : tree.read (.ofString "/r/a") = .ok [104] := by cbv
      simp only [Folder.records, files, List.map_cons, List.map_nil, RecordBuilder.build,
        RecordBuilder.readText, kept, read]
      decide +kernel
    obtain ⟨report, ran⟩ :=
      run_of_free (show 1 ≤ options.batchSize by decide) found made (by decide)
      (leads.collection ▸ leads.there (.inl before))
      (Folder.records_agree options (leads.agree reachable.sound.keeps.known) tidy clear ▸ taken ▸
        StoreCall.isFree_of_size (by decide))
    obtain ⟨rows, -⟩ := run_appends reachable found made (.inl before) tidy clear ran
    refine ⟨_, c, found, rfl, .inl before, tidy, clear, ⟨report, ran⟩, rows.trans ?_⟩
    have old : ((s.database c.key).rows "documents").toOption.getD [] = [] := by rfl
    show Except.ok (Row.appended (((s.database c.key).rows "documents").toOption.getD [])
      (Folder.records ⟨.ofString "/r"⟩ options tree)) = _
    rw [old, taken]
    rfl

end Session

end TextArchive
