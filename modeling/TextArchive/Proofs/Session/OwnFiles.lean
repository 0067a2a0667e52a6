import Mathlib.Data.List.Sort
import TextArchive.Proofs.Ingest.Scanning
import TextArchive.Proofs.Session.AppendOnly
import TextArchive.Proofs.Session.Running
import TextArchive.Proofs.Session.Trees

/-!
Runs over folders that hold their database. The walk sees the files of the database like any others,
so that a run counts each path that leads to one of them and adds a row for it; all other files are
those that were there before.
-/

set_option autoImplicit false
set_option relaxedAutoImplicit false

namespace TextArchive

open TextArchive.File (Disk Location Name Path Walk)
open TextArchive.File.Disk (Agree)
open TextArchive.File.Walk (ClearOf)
open TextArchive.Ingest
open TextArchive.Store (Config Connection Database Engine Row Storage)

namespace Ingest.Folder

variable {folder : Folder} {root : Location} {places : List Location} {d d' : Disk}

/-- Whether a path that the walk through a folder has found is that of one of some places, or leads
to one of them over links. -/
def leadsInto (disk : Disk) (folder : Folder) (root : Location) (places : List Location)
    (p : Path) : Bool :=
  places.contains (root ++ p.segments.drop folder.root.segments.length) ||
    (disk.locate ⟨true, true⟩ p).toOption.any places.contains

private theorem leadsInto_eq_false {p : Path} :
    folder.leadsInto d root places p = false ↔
      root ++ p.segments.drop folder.root.segments.length ∉ places ∧
        ∀ l ∈ places, d.locate ⟨true, true⟩ p ≠ .ok l := by
  unfold leadsInto
  cases located : d.locate ⟨true, true⟩ p with
  | error e => simp [Except.toOption]
  | ok l =>
    simp only [Except.toOption, Option.any_some, Bool.or_eq_false_iff, List.contains_eq_mem,
      decide_eq_false_iff_not, ne_eq, Except.ok.injEq]
    exact and_congr_right fun _ => ⟨fun outside l' member same => outside (same ▸ member),
      fun apart member => apart l member rfl⟩

private theorem leadsInto_agree (agree : Agree places d d') (p : Path) :
    folder.leadsInto d' root places p = folder.leadsInto d root places p := by
  have leads : ∀ {d d' : Disk}, Agree places d d' →
    (∀ l ∈ places, d.locate ⟨true, true⟩ p ≠ .ok l) →
      ∀ l ∈ places, d'.locate ⟨true, true⟩ p ≠ .ok l := by
    intro d d' agree clear l member located
    rcases agree.locate p with same | ⟨l', member', -, located'⟩ | failed
    · exact clear l member ((same true).symm.trans located)
    · exact clear l' member' located'
    · obtain ⟨-, e, failed⟩ := failed true
      rw [failed] at located
      cases located
  refine Bool.eq_iff_iff.mpr (not_iff_not.mp ?_)
  simp only [Bool.not_eq_true, leadsInto_eq_false]
  exact and_congr_right fun _ => ⟨leads agree.symm, leads agree⟩

private theorem Reaches.agree {names : List Name} (agree : Agree places d d')
    (reaches : Reaches d folder root names) (away : root ++ names ∉ places)
    (clear : ∀ l ∈ places, d.locate ⟨true, true⟩ (names.foldl Path.join folder.root) ≠ .ok l) :
    Reaches d' folder root names where
  below := reaches.below
  passed above before other := by
    obtain ⟨directory, short⟩ := reaches.passed above before other
    refine ⟨?_, short⟩
    rcases agree.node? (root ++ above) with same | ⟨-, bare, -⟩
    · rw [same]
      exact directory
    · simpa [File.Node.isRegular] using bare _ directory
  file := by
    obtain ⟨node, there, counts⟩ := reaches.file
    have same := (agree.node? (root ++ names)).resolve_right fun inside => away inside.1
    refine ⟨node, same.trans there, counts.imp_right fun link => ⟨link.1, ?_⟩⟩
    have leads := link.2
    unfold Disk.isFile at leads ⊢
    rcases agree.lookUp clear with ⟨-, looked⟩ | ⟨⟨e, failed⟩, -⟩
    · rw [looked]
      exact leads
    · simp [failed] at leads

section Directory

variable {path : Path} (agree : Agree places d d') (tree : d.Tree) (tree' : d'.Tree)
  (reached : d.resolve path = .ok root) (directory : d.node? root = some .directory)
  (form : path.absolute? d.workingDirectory = some folder.root)
include agree tree tree' reached directory form

private theorem files_elsewhere :
    ((folder.items d').filterMap SourceItem.file?).filter
    (fun p => !folder.leadsInto d root places p) =
      ((folder.items d).filterMap SourceItem.file?).filter fun p =>
      !folder.leadsInto d root places p := by
  obtain ⟨reached', directory'⟩ := agree.resolve_of_directory reached directory
  have form' : path.absolute? d'.workingDirectory = some folder.root := by
    rw [agree.workingDirectory, form]
  have : Std.Irrefl fun p q : Path => p.segments < q.segments :=
    ⟨fun p => List.lt_irrefl p.segments⟩
  have : Std.Antisymm fun p q : Path => p.segments < q.segments :=
    ⟨fun p q less greater => absurd greater (List.lt_asymm less)⟩
  have ordered := pairwise_files tree reached directory form
  have ordered' := pairwise_files tree' reached' directory' form'
  refine (ordered'.filter _).eq_of_mem_iff (ordered.filter _) fun p => ?_
  simp only [List.mem_filter, Bool.not_eq_true', mem_files tree reached directory form,
    mem_files tree' reached' directory' form', leadsInto_eq_false]
  constructor
  · rintro ⟨⟨names, rfl, reaches⟩, away, clear⟩
    refine ⟨⟨names, rfl, reaches.agree agree.symm ?_ ?_⟩, away, clear⟩
    · rwa [segments_joined tree' reached' directory' form' reaches, List.drop_left] at away
    · have led : folder.leadsInto d root places (names.foldl Path.join folder.root) = false :=
        leadsInto_eq_false.mpr ⟨away, clear⟩
      rw [← leadsInto_agree agree] at led
      exact (leadsInto_eq_false.mp led).2
  · rintro ⟨⟨names, rfl, reaches⟩, away, clear⟩
    refine ⟨⟨names, rfl, reaches.agree agree ?_ clear⟩, away, clear⟩
    rwa [segments_joined tree reached directory form reaches, List.drop_left] at away

end Directory

private theorem leadsInto_of_clear {path : Path} (tree : d.Tree)
    (reached : d.resolve path = .ok root) (directory : d.node? root = some .directory)
    (form : path.absolute? d.workingDirectory = some folder.root)
    (clear : ClearOf d folder.root places) {p : Path}
    (found : p ∈ (folder.items d).filterMap SourceItem.file?) :
    folder.leadsInto d root places p = false := by
  obtain ⟨names, rfl, reaches⟩ := (mem_files tree reached directory form).mp found
  have start : d.resolve folder.root = .ok root := by
    simpa using resolve_above tree reached directory form reaches List.nil_prefix reaches.below.symm
  have away : root ++ names ∉ places := fun inside =>
    clear.outside root start _ inside (List.prefix_append root names)
  refine leadsInto_eq_false.mpr ⟨?_, fun l member located => ?_⟩
  · rwa [segments_joined tree reached directory form reaches, List.drop_left]
  · by_cases link : ∃ target, d.node? (root ++ names) = some (.link target)
    · obtain ⟨target, there⟩ := link
      exact clear.links root names target start there l member located
    · have own : l = root ++ names :=
        locate_file tree reached directory form reaches
          (fun target there => link ⟨target, there⟩) located
      exact away (own ▸ member)

end Ingest.Folder

/-- Whether the journal stays beside the database when a transaction has ended. -/
def Store.Connection.leavesJournal (c : Connection) : Bool :=
  c.configuredMode = some .persist || c.configuredMode = some .truncate

namespace Session

def folderWithFile : Disk :=
  ⟨[([[114]], .directory), ([[114], [97]], .file (.bytes [104]))], []⟩

def folderWithDatabase : Disk :=
  ⟨[([[114]], .directory), ([[114], [97]], .file (.bytes [104])), ([[114],
    [100]], .file (.stored 0)),
    ([[114], [100, 45, 119, 97, 108]], .file (.bytes [])),
      ([[114], [100, 45, 115, 104, 109]], .file (.bytes []))], []⟩

private theorem files_with_database : firstFiles none
    (Folder.items ⟨.ofString "/r"⟩ folderWithDatabase) =
    ["/r/a", "/r/d", "/r/d-shm", "/r/d-wal"].map Path.ofString := by
  cbv

private theorem records_with_database : Folder.records ⟨.ofString "/r"⟩ {} folderWithDatabase =
    [⟨"a", "/r/a", "h", standardTag, none⟩, ⟨"d", "/r/d", "SQLite format 3\x00", standardTag, none⟩,
      ⟨"d-shm", "/r/d-shm", "", standardTag, none⟩,
      ⟨"d-wal", "/r/d-wal", "", standardTag, none⟩] := by
  have kept : ∀ file ∈ ["/r/a", "/r/d", "/r/d-shm", "/r/d-wal"],
      RecordBuilder.sourcePathOf folderWithDatabase (.ofString file) = .ofString file := by
    simp only [List.forall_mem_cons]
    refine ⟨by cbv, by cbv, by cbv, by cbv, by simp⟩
  have own : folderWithDatabase.read (.ofString "/r/a") = .ok [104] := by cbv
  have database : folderWithDatabase.read (.ofString "/r/d") = .ok File.databaseHeader := by cbv
  have shared : folderWithDatabase.read (.ofString "/r/d-shm") = .ok [] := by cbv
  have log : folderWithDatabase.read (.ofString "/r/d-wal") = .ok [] := by cbv
  simp only [List.forall_mem_cons] at kept
  simp only [Folder.records, files_with_database, List.map_cons, List.map_nil, RecordBuilder.build,
    RecordBuilder.readText, kept, own, database, shared, log]
  decide +kernel

private theorem run_into_folder :
    let s := Storage.ofDisk folderWithFile
    let opened := (s.connect (.ofString "/r/d") {}).state
    s.Grounded ∧ Folder.ofPath s.shown (.ofString "/r") = .ok ⟨.ofString "/r"⟩ ∧
      s.shown.resolve (.ofString "/r") = .ok [[114]] ∧
      ∃ c report, (s.connect (.ofString "/r/d") {}).result = .ok c ∧
        opened.shown = folderWithDatabase ∧
        c.leavesJournal = false ∧ opened.placesOf c.key = [[[114], [100]]] ∧
        (opened.database c.key).IsCollection "documents" ∧
        (Ingestion.run {} (.ofString "/r") (.ofString "/r/d") {} s).result = .ok report := by
  intro s opened
  have shown : s.shown = folderWithFile := rfl
  have grounded : s.Grounded := by
    refine ⟨by decide +kernel, fun l target link => ?_, by decide⟩
    obtain rfl | below := eq_or_ne l []
    · cases link
    · have listed := Disk.mem_of_node? link below
      simp [s, Storage.ofDisk, folderWithFile] at listed
  have resolved : folderWithFile.resolve (.ofString "/r") = .ok [[114]] := by cbv
  have found : Folder.ofPath s.shown (.ofString "/r") = .ok ⟨.ofString "/r"⟩ := by
    have directory : folderWithFile.isDirectory (.ofString "/r") = true := by cbv
    have absolute : (Path.ofString "/r").absolute? folderWithFile.workingDirectory =
      some (.ofString "/r") := by
      decide +kernel
    simp only [Folder.ofPath, shown, directory, absolute]
    rfl
  have attached : s.attach (.ofString "/r/d") true = .ok (s.addAt [[114], [100]]) := by
    have leads : Storage.databasePlace? s.disk (.ofString "/r/d") = some [[114], [100]] := by cbv
    have whole : (Path.ofString "/r/d").bytes.findIdx? (· = 0) = none := by decide +kernel
    have kept : Storage.IsFilePath (.ofString "/r/d") := ⟨by decide +kernel, by decide +kernel⟩
    exact Storage.attach_missing whole kept leads (by decide +kernel)
  have connected : s.connect (.ofString "/r/d") {} =
      (s.addAt [[114], [100]]).2.connectAttached (.ofString "/r/d") {} (s.addAt [[114], [100]]).1 :=
    Storage.connect_of_attach rfl attached (by decide +kernel) (by decide +kernel)
  have key : (s.connect (.ofString "/r/d") {}).result.toOption.map (fun c => (c.key,
    c.leavesJournal)) =
      some (0, false) := by
    rw [connected]
    decide +kernel
  cases made : (s.connect (.ofString "/r/d") {}).result with
  | error e => simp [made, Except.toOption] at key
  | ok c =>
    obtain ⟨here, brief⟩ : c.key = 0 ∧ c.leavesJournal = false := by
      simpa [made, Except.toOption] using key
    have leads := Storage.made_of_connect grounded.known made
    have collection : (opened.database c.key).IsCollection c.collection :=
      leads.collection ▸ leads.there (.inl rfl)
    have shows : opened.shown = folderWithDatabase := by
      have entries : opened.shown.entries = folderWithDatabase.entries := by
        simp only [opened, connected]
        decide +kernel
      have workingDirectory : opened.shown.workingDirectory =
        folderWithDatabase.workingDirectory := by
        simp only [opened, connected]
        decide +kernel
      exact congrArg₂ Disk.mk entries workingDirectory
    have free : (StoreCall.insertBatch (Folder.records ⟨.ofString "/r"⟩ {}
      opened.shown)).IsFree := by
      rw [shows, records_with_database]
      exact StoreCall.isFree_of_size (by decide +kernel)
    obtain ⟨report, ran⟩ := run_of_free (show 1 ≤ ({} : Options).batchSize by decide) found made
      (by decide) collection free
    refine ⟨grounded, found, resolved, c, report, rfl, shows, brief, ?_, ?_, ran⟩
    swap
    · rwa [leads.collection] at collection
    simp only [opened, connected, here]
    decide +kernel

end Session

end TextArchive
