import TextArchive.Proofs.Ingest.Handover
import TextArchive.Proofs.Ingest.Scanning
import TextArchive.Proofs.Session.Connecting
import TextArchive.Proofs.Session.Looking
import TextArchive.Proofs.Session.Opening

/-!
What a run checks before it touches anything. Options, folder and configuration are looked at in
this order, and a run that is refused for one of them leaves everything as it is. That no file has
been read is put as follows: with any other bytes in the files, the same run does the same.
-/

set_option autoImplicit false
set_option relaxedAutoImplicit false

namespace TextArchive

open TextArchive.File (Content Disk Location Node Path)
open TextArchive.Ingest
open TextArchive.Store (Attached Config Connection Database Engine Medium Pragmas Storage StoreError)
open TextArchive.Text.Utf8 (Bytes)

namespace File

def Node.refill (fill : Bytes → Bytes) : Node → Node
  | .file (.bytes content) => .file (.bytes (fill content))
  | node => node

namespace Disk

def refill (fill : Location → Bytes → Bytes) (disk : Disk) : Disk :=
  { disk with entries := disk.entries.map fun entry => (entry.1, entry.2.refill (fill entry.1)) }

variable (fill : Location → Bytes → Bytes) (disk : Disk)

private theorem node?_refill (l : Location) : (disk.refill fill).node? l = (disk.node? l).map
    (Node.refill (fill l)) := by
  unfold node?
  split
  · rfl
  · have here : ((disk.refill fill).entries.find? (·.1 = l)) =
        (disk.entries.find? (·.1 = l)).map fun entry => (entry.1, entry.2.refill (fill entry.1)) :=
      List.find?_map
    rw [here]
    cases found : disk.entries.find? (·.1 = l) with
    | none => rfl
    | some entry =>
      have same : entry.1 = l := by simpa using List.find?_some found
      simp only [Option.map_some, same]

private theorem agreeInKind_refill : disk.AgreeInKind (disk.refill fill) where
  workingDirectory := rfl
  nodes := by
    intro l
    rw [node?_refill]
    cases there : disk.node? l with
    | none => exact .inl rfl
    | some node =>
      cases node with
      | file held => cases held <;> exact .inr ⟨_, _, rfl, rfl⟩
      | _ => exact .inl rfl

private theorem put_refill (place : Location) (key : Nat) :
    (disk.refill fill).put place (.file (.stored key)) =
    (disk.put place (.file (.stored key))).refill fill := by
  simp only [put, refill, List.map_append, List.filter_map]
  rfl

end Disk

end File

namespace Store.Storage

def refill (fill : Location → Bytes → Bytes) (s : Storage) : Storage :=
  { s with disk := s.disk.refill fill }

/-- Whether a path leads to a directory of the files as they show themselves. -/
def IsFolder (s : Storage) (root : Path) : Prop :=
  ∃ l, s.shown.resolve root = .ok l ∧ s.shown.node? l = some .directory

variable (fill : Location → Bytes → Bytes) (s : Storage)

private theorem sideFiles_refill :
    (s.refill fill).disk.entries.flatMap (s.refill fill).sideFiles =
    s.disk.entries.flatMap s.sideFiles := by
  show (s.disk.entries.map _).flatMap _ = _
  rw [List.flatMap_map]
  congr 1
  funext entry
  obtain ⟨place, node⟩ := entry
  cases node with
  | file held => cases held <;> rfl
  | _ => rfl

private theorem agreeInKind_shown_refill : s.shown.AgreeInKind (s.refill fill).shown where
  workingDirectory := rfl
  nodes := by
    intro l
    by_cases below : l = []
    · simp [below, Disk.node?]
    have agree : s.disk.AgreeInKind (s.refill fill).disk := s.disk.agreeInKind_refill fill
    rw [node?_shown_or _ below, node?_shown_or s below, sideFiles_refill]
    simp only [agree.hasRoom]
    rw [show (s.refill fill).disk.node? l = _ from s.disk.node?_refill fill l]
    cases s.disk.node? l with
    | none => exact .inl rfl
    | some node =>
      cases node with
      | file held => cases held <;> exact .inr ⟨_, _, rfl, rfl⟩
      | _ => exact .inl rfl

variable {fill s} {path : Path} {config : Config}

/-- Fillings that leave the file alone in which the database of a path is or would be. -/
def Spares (fill : Location → Bytes → Bytes) (s : Storage) (path : Path) : Prop :=
  ∀ place, databasePlace? s.disk path = some place → fill place = id

private theorem attach_refill (spares : Spares fill s path) (mayCreate : Bool) :
    (s.refill fill).attach path mayCreate = (s.attach path mayCreate).map
    (Prod.map id (refill fill)) := by
  have leads : databasePlace? (s.refill fill).disk path = databasePlace? s.disk path :=
    (s.disk.agreeInKind_refill fill).databasePlace?_eq path
  have made : ∀ place, (s.refill fill).addAt place = Prod.map id (refill fill) (s.addAt place) := by
    intro place
    simp only [addAt, add, refill, Prod.map, id, File.Disk.put_refill]
  unfold attach
  rw [leads]
  split
  · rfl
  split
  · rfl
  split
  · rfl
  split
  · rfl
  rename_i place found
  have same : (s.refill fill).disk.node? place = s.disk.node? place := by
    rw [show (s.refill fill).disk.node? place = _ from s.disk.node?_refill fill place,
      spares place found]
    rcases s.disk.node? place with _ | node
    · rfl
    · cases node with
      | file held => cases held <;> rfl
      | _ => rfl
  rw [same, made]
  cases s.disk.node? place with
  | none => cases mayCreate <;> rfl
  | some node =>
    cases node with
    | file held =>
      cases held with
      | stored key => rfl
      | bytes bytes => cases bytes <;> rfl
    | _ => rfl

private theorem connectAttached_refill (attached : Attached) :
    (s.refill fill).connectAttached path config attached =
      (s.connectAttached path config attached).mapState (refill fill) := by
  have mode : (s.refill fill).modeFor attached config.pragmas =
    s.modeFor attached config.pragmas := rfl
  have database : ∀ mode, ((s.refill fill).setWriteAhead attached.key mode).database attached.key =
      (s.setWriteAhead attached.key mode).database attached.key := fun _ => rfl
  simp only [connectAttached, mode, database]
  cases
    ((s.setWriteAhead attached.key (s.modeFor attached config.pragmas)).database attached.key).createCollection
    config.collection config.tokenizer with
  | error e => rfl
  | ok db =>
    dsimp only
    split <;> rfl

private theorem connect_refill (spares : Spares fill s path) (config : Config) :
    (s.refill fill).connect path config = (s.connect path config).mapState (refill fill) := by
  unfold connect
  rw [attach_refill spares]
  split
  · rfl
  cases s.attach path true with
  | error e => rfl
  | ok led =>
    obtain ⟨attached, s'⟩ := led
    have refusal : (s'.refill fill).journalRefusal? attached config.pragmas = s'.journalRefusal?
      attached config.pragmas :=
      rfl
    simp only [Except.map, Prod.map, id, refusal]
    split
    · rfl
    split
    · rfl
    · exact connectAttached_refill attached

private theorem tables_of_connectAttached_error {attached : Attached} {e : IngestError}
    (failed : (s.connectAttached path config attached).result = .error e) (key : Nat) :
    ((s.connectAttached path config attached).state.database key).tables =
    (s.database key).tables := by
  unfold connectAttached at failed ⊢
  simp only at failed ⊢
  cases created : ((s.setWriteAhead attached.key (s.modeFor attached config.pragmas)).database
    attached.key).createCollection config.collection config.tokenizer with
  | error e => exact s.tables_setWriteAhead attached.key _ key
  | ok db =>
    rw [created] at failed
    dsimp only at failed ⊢
    split
    · exact s.tables_setWriteAhead attached.key _ key
    · rename_i steady
      rw [if_neg steady] at failed
      cases failed

private theorem tables_of_connect_error {e : IngestError}
    (failed : (s.connect path config).result = .error e) (key : Nat) :
    ((s.connect path config).state.database key).tables = (s.database key).tables := by
  unfold connect at failed ⊢
  split
  · rfl
  rename_i valid
  simp only [valid] at failed
  split
  · rfl
  rename_i attached s' found
  simp only [found] at failed
  rw [← (attaches_of_attach found).database key]
  split
  · rfl
  rename_i accepted
  simp only [accepted] at failed
  split
  · exact s'.tables_setWriteAhead attached.key _ key
  rename_i closed
  simp only [closed] at failed
  exact tables_of_connectAttached_error failed key

end Store.Storage

namespace Ingest.Ingestion

open Store.Storage

section Checks

variable [Engine] {options : Options} {root path : Path} {config : Config} {s : Storage}

private theorem run_of_zero (zero : options.batchSize = 0) :
    run options root path config s = .failed s (.invalidArgument .zeroBatchSize) := by
  simp only [run, Options.validate, zero, if_true]

omit [Engine] in
private theorem validate_ok (positive : 1 ≤ options.batchSize) : options.validate = .ok () :=
  if_neg (Nat.ne_of_gt positive)

private theorem run_of_no_folder (positive : 1 ≤ options.batchSize) (missing : ¬ s.IsFolder root) :
    run options root path config s = .failed s (.rootNotFound root) := by
  have no_folder : Folder.ofPath s.shown root = .error (.rootNotFound root) :=
    if_neg fun is_directory => missing (Disk.isDirectory_iff.mp is_directory)
  simp only [run, validate_ok positive, no_folder]

private theorem run_of_connect_error (positive : 1 ≤ options.batchSize) (there : s.IsFolder root)
    {e : IngestError} (failed : (s.connect path config).result = .error e) :
    run options root path config s =
    ⟨(s.connect path config).events, (s.connect path config).state, .error e⟩ := by
  obtain ⟨l, reached, directory⟩ := there
  obtain ⟨folder, found, -⟩ := Folder.exists_ofPath reached directory
  simp only [run, validate_ok positive, found]
  exact Outcome.andThen_error failed _

omit [Engine] in
private theorem isFolder_refill_iff (fill : Location → Bytes → Bytes) :
    (s.refill fill).IsFolder root ↔ s.IsFolder root := by
  simp only [IsFolder, (s.agreeInKind_shown_refill fill).resolve,
    (s.agreeInKind_shown_refill fill).directory_iff]

end Checks

/-- Arguments are checked before anything is touched: first the size of the batches, then whether
the path of the files leads to a directory, then the configuration, and what fails first is what is
reported. Nothing has been logged or changed then, and the run would have done the same with any
other bytes in the files, so that it has read none. If the database or the collection is not to be
had, the run ends as the attempt to connect has ended: no table has changed, and no file but the one
of the database has been read. An ingestion into batches that hold nothing is refused whatever the
source gives and whatever is built of it, and nothing is asked of the collection. -/
theorem arguments_checked_first [Engine] (options : Options) (root path : Path) (config : Config)
    (s : Storage) :
    let done := run options root path config s
    let opened := s.connect path config
    let same (fill : Location → Bytes → Bytes) : Prop :=
      run options root path config (s.refill fill) = done.mapState (refill fill)
    (options.batchSize = 0 →
      done = .failed s (.invalidArgument .zeroBatchSize) ∧ ∀ fill, same fill) ∧
    (1 ≤ options.batchSize → ¬ s.IsFolder root →
      done = .failed s (.rootNotFound root) ∧ ∀ fill, same fill) ∧
    (1 ≤ options.batchSize → s.IsFolder root → ∀ e, config.validate = .error e →
      done = .failed s (.invalidArgument e) ∧ ∀ fill, same fill) ∧
    (1 ≤ options.batchSize → s.IsFolder root → ∀ e,
      opened.result = .error (.storeUnavailable path e) →
      done = ⟨opened.events, opened.state, .error (.storeUnavailable path e)⟩ ∧
      (∀ key, (done.state.database key).tables = (s.database key).tables) ∧
      ∀ fill, Spares fill s path → same fill) ∧
    (options.batchSize = 0 → ∀ (σ : Type) [FullTextCollection σ] (build : Path → BuiltRecord) (source : List SourceItem)
      (collection : σ), ingest options build source (Recorded.start collection) =
        ⟨[.ingestionStarted 0], .start collection, .error (.invalidArgument .zeroBatchSize)⟩) := by
  intro done opened same
  refine ⟨fun zero => ⟨run_of_zero zero, fun fill => ?_⟩, fun positive missing =>
    ⟨run_of_no_folder positive missing, fun fill => ?_⟩, fun positive there e invalid => ?_,
    fun positive there e failed => ?_, fun zero σ _ build source collection => ?_⟩
  · simp only [same, done, run_of_zero zero]
    rfl
  · have missing' : ¬ (s.refill fill).IsFolder root := by rwa [isFolder_refill_iff]
    simp only [same, done, run_of_no_folder positive missing, run_of_no_folder positive missing']
    rfl
  · have refused : ∀ t : Storage, t.connect path config = .failed t (.invalidArgument e) := by
      intro t
      simp only [connect, invalid]
    have run_eq : ∀ t : Storage, t.IsFolder root →
        run options root path config t = .failed t (.invalidArgument e) := by
      intro t there
      have result : (t.connect path config).result = .error (.invalidArgument e) :=
        congrArg Outcome.result (refused t)
      rw [run_of_connect_error positive there result, refused]
      rfl
    refine ⟨run_eq s there, fun fill => ?_⟩
    simp only [same, done, run_eq s there, run_eq _ ((isFolder_refill_iff fill).mpr there)]
    rfl
  · have ended := run_of_connect_error positive there failed
    refine ⟨ended, fun key => ?_, fun fill spares => ?_⟩
    · rw [show done = _ from ended]
      exact tables_of_connect_error failed key
    · have connected := connect_refill spares config
      have failed' : ((s.refill fill).connect path config).result = .error
        (.storeUnavailable path e) := by
        rw [connected]
        exact failed
      show run options root path config (s.refill fill) = done.mapState (refill fill)
      rw [show done = _ from ended,
        run_of_connect_error positive ((isFolder_refill_iff fill).mpr there) failed', connected]
      rfl
  · simp only [ingest, BatchWriter.start, zero, if_true]

/-- A directory with one file. All arguments are wrong at first, and they are put right one after
the other until only the name of the collection cannot be given to a table. With nothing in the file
it would have been the same. -/
theorem arguments_checked_first_beside_file :
    let s := ofDisk ⟨[([[114]], .directory), ([[114], [97]], .file (.bytes [104, 105]))], []⟩
    let path := Path.ofString "/d"
    let misnamed : Config := { collection := "a-b" }
    let keyword : Config := { collection := "select" }
    let none_each : Options := { batchSize := 0 }
    let one_each : Options := { batchSize := 1 }
    let emptied : Location → Bytes → Bytes := fun l bytes => if l = [[100]] then bytes else []
    let made := run one_each (.ofString "/r") path keyword
    run none_each (.ofString "/x") path misnamed s = .failed s (.invalidArgument .zeroBatchSize) ∧
    run one_each (.ofString "/x") path misnamed s = .failed s (.rootNotFound (.ofString "/x")) ∧
    run one_each (.ofString "/r") path misnamed s = .failed s
      (.invalidArgument (.collectionName "a-b")) ∧
    (∃ e, (made s).result = .error (.storeUnavailable path e)) ∧
    (s.refill emptied).disk.entries = [([[114]], .directory), ([[114], [97]], .file (.bytes []))] ∧
    made (s.refill emptied) = (made s).mapState (refill emptied) ∧
    ingest none_each (fun path => (builder none_each).build s.shown path) [.file (.ofString "/r/a")]
      (Recorded.start (MemoryCollection.refusing [] [])) =
        ⟨[.ingestionStarted 0], .start (MemoryCollection.refusing [] []),
          .error (.invalidArgument .zeroBatchSize)⟩ := by
  intro s path misnamed keyword none_each one_each emptied made
  have folder : s.IsFolder (.ofString "/r") := ⟨[[114]], by cbv, rfl⟩
  have no_folder : ¬ s.IsFolder (.ofString "/x") := by
    rintro ⟨l, reached, -⟩
    have missing : s.shown.resolve (.ofString "/x") = .error .notFound := by cbv
    cases missing.symm.trans reached
  have misnamed_refused : misnamed.validate = .error (.collectionName "a-b") := by
    have unnamed : Store.Name.isName "a-b" = false := by decide +kernel
    simp [misnamed, Config.validate, unnamed]
  have free : s.disk.node? [[100]] = none := by decide +kernel
  have leads : databasePlace? s.disk path = some [[100]] :=
    isTopPath_d.databasePlace?_eq (by simp [free])
  have absent : s.Absent path := ⟨isTopPath_d.isFilePath, by decide +kernel, [[100]], leads, free⟩
  have spares : Spares emptied s path := by
    intro place found
    obtain rfl := Option.some.inj (leads.symm.trans found)
    rfl
  have named : Store.Name.isName "select" = true := by decide +kernel
  obtain ⟨e, failed⟩ := (absent.connect named).1 (by decide +kernel)
  obtain ⟨first, -, -, -, last⟩ :=
    arguments_checked_first none_each (.ofString "/x") path misnamed s
  obtain ⟨-, second, -⟩ := arguments_checked_first one_each (.ofString "/x") path misnamed s
  obtain ⟨-, -, third, -⟩ := arguments_checked_first one_each (.ofString "/r") path misnamed s
  obtain ⟨-, -, -, fourth, -⟩ := arguments_checked_first one_each (.ofString "/r") path keyword s
  obtain ⟨ended, -, unread⟩ := fourth (Nat.le_refl 1) folder e failed
  exact ⟨(first rfl).1, (second (Nat.le_refl 1) no_folder).1,
    (third (Nat.le_refl 1) folder _ misnamed_refused).1, ⟨e, congrArg Outcome.result ended⟩, rfl,
    unread emptied spares, last rfl _ _ _ _⟩

end Ingest.Ingestion

end TextArchive
