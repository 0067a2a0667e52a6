import TextArchive.Proofs.Session.Connecting
import TextArchive.Proofs.Session.Opening

/-!
Opening a store makes what is missing and changes nothing else. A configuration that is refused
leaves everything as it is, a collection that exists stays with all that is in it, and opening
again, in whatever way, adds nothing.
-/

set_option autoImplicit false
set_option relaxedAutoImplicit false

namespace TextArchive.Store

open TextArchive.File (Disk Location Node Path)
open TextArchive.Index (Tokenizer)

namespace Database

/-- Databases that have the same tables, so that they answer in the same way; their logs may
differ. -/
structure SameTables (db db' : Database) : Prop where
  tables : db'.tables = db.tables
  rows : ∀ name, db'.rows name = db.rows name
  rankConfig : ∀ name, db'.rankConfig name = db.rankConfig name
  answers : ∀ opened name text topK,
    searchAfter opened db' name text topK = searchAfter opened db name text topK

private theorem sameTables_iff {db db' : Database} :
    db.SameTables db' ↔ db'.tables = db.tables := by
  refine ⟨SameTables.tables, fun tables => ?_⟩
  have found : db'.find? = db.find? := by
    funext name
    rw [find?_eq, find?_eq, tables]
  refine ⟨tables, fun name => rows_congr (congrFun found name),
    fun name => rankConfig_congr (congrFun found _), fun opened name text topK => ?_⟩
  exact searchAfter_congr (congrFun found name) opened text topK

end Database

namespace Storage

variable {s t : Storage} {path : Path} {config : Config} {c : Connection}

/-- Opening a path again and again for a collection, with any tokenizer and any settings, and giving
connections up. -/
inductive Reopens (path : Path) (collection : String) (s : Storage) : Storage → Prop
  | refl : Reopens path collection s s
  | connect {t : Storage} (before : Reopens path collection s t) (config : Config)
      (same : Name.same config.collection collection = true) :
      Reopens path collection s (t.connect path config).state
  | disconnect {t : Storage} (before : Reopens path collection s t) (c : Connection) :
      Reopens path collection s (t.disconnect c)

/-- What a request for a connection leaves if what the path leads to has a table of the name,
whatever else is there: the tables of all databases, and the files. -/
structure KeepsTables (s t : Storage) : Prop where
  disk : t.disk = s.disk
  grows : s.databases.length ≤ t.databases.length
  tables : ∀ key, key < s.databases.length → (t.database key).tables = (s.database key).tables

private theorem KeepsTables.refl (s : Storage) : KeepsTables s s :=
  ⟨rfl, Nat.le_refl _, fun _ _ => rfl⟩

private theorem KeepsTables.trans {u : Storage} (first : KeepsTables s t)
    (second : KeepsTables t u) : KeepsTables s u where
  disk := second.disk.trans first.disk
  grows := Nat.le_trans first.grows second.grows
  tables key inside := (second.tables key (Nat.lt_of_lt_of_le inside first.grows)).trans
    (first.tables key inside)

private theorem Attaches.keepsTables {attached : Attached} (attaches : Attaches s path attached t)
    (disk : t.disk = s.disk) :
    KeepsTables s t :=
  ⟨disk, attaches.grows, fun key _ => by rw [attaches.database]⟩

private theorem Changes.keepsTables {key : Nat} (changes : Changes key s t)
    (tables : key < s.databases.length →
    (t.database key).tables = (s.database key).tables) : KeepsTables s t where
  disk := changes.disk
  grows := Nat.le_of_eq changes.length.symm
  tables other inside := by
    by_cases same : other = key
    · subst same
      exact tables inside
    · rw [changes.others other same]

private theorem tables_of_created {db db' : Database} {writeAhead : Bool}
    {collection specification : String} (there : db.find? collection ≠ none)
    (created : ({ db with writeAhead } : Database).createCollection collection specification = .ok db') :
    db'.tables = db.tables := by
  rcases Database.createCollection_cases created with ⟨rfl, -⟩ | ⟨missing, -⟩
  · rfl
  · exact absurd missing there

private theorem keepsTables_connect {attached : Attached} {s₀ : Storage}
    (attaches : Attaches s₀ path attached s) (disk : t.disk = s.disk)
    (known : ∀ key ∈ t.disk.storedKeys, key < t.databases.length)
    (there : (t.database attached.key).find? config.collection ≠ none) :
    KeepsTables t (t.connect path config).state ∧
      ∀ c, (t.connect path config).result = .ok c → IsFilePath path → c.key = attached.key := by
  cases connecting known path config with
  | refused e result state =>
    rw [state, result]
    exact ⟨.refl t, nofun⟩
  | failed e result found changes tables =>
    have attaches' := attaches_of_attach found
    have unchanged := (attaches.again disk attaches').1
    rw [result]
    exact ⟨(attaches'.keepsTables unchanged).trans (changes.keepsTables fun _ => tables), nofun⟩
  | @connected attached' t' c result found key medium steady collection opened
    changes writeAhead created =>
    have attaches' := attaches_of_attach found
    obtain ⟨unchanged, same⟩ := attaches.again disk attaches'
    rw [result]
    constructor
    · refine ⟨changes.disk.trans unchanged, changes.length ▸ attaches'.grows, fun key inside => ?_⟩
      by_cases here : key = attached'.key
      · subst here
        rw [tables_of_created (by rwa [attaches'.database,
          same (attaches'.medium_of_lt inside)]) created,
          attaches'.database]
      · rw [changes.others key here, attaches'.database]
    · rintro _ ⟨⟩ kept
      rw [key, same (attaches'.medium_of_isFilePath kept (medium ▸ steady))]

private theorem find?_of_tables {db db' : Database} (tables : db'.tables = db.tables)
    (name : String) :
    db'.find? name = db.find? name := by
  rw [Database.find?_eq, Database.find?_eq, tables]

theorem Reopens.keepsTables {attached : Attached} {s₀ : Storage}
    (attaches : Attaches s₀ path attached s) {b : Storage} (disk : b.disk = s.disk)
    (known : ∀ key ∈ b.disk.storedKeys, key < b.databases.length)
    (inside : attached.key < b.databases.length) {collection : String}
    (there : (b.database attached.key).find? collection ≠ none)
    (reopens : Reopens path collection b t) :
    KeepsTables b t := by
  induction reopens with
  | refl => exact .refl b
  | @connect t before config same ih =>
    have found : (t.database attached.key).find? config.collection ≠ none := by
      rw [Database.find?_congr same, find?_of_tables (ih.tables attached.key inside)]
      exact there
    refine ih.trans
      (keepsTables_connect attaches (ih.disk.trans disk) (fun key member => ?_) found).1
    exact Nat.lt_of_lt_of_le (known key (ih.disk ▸ member)) ih.grows
  | disconnect before c ih => exact ⟨ih.disk, ih.grows, ih.tables⟩

private theorem Attaches.node?_eq {attached : Attached} (attaches : Attaches s path attached t)
    {l : Location} {node : Node} (there : s.disk.node? l = some node)
    (filled : node ≠ .file (.bytes [])) :
    t.disk.node? l = some node := by
  cases attaches with
  | fleeting | device | found => exact there
  | @made place _ _ free =>
    have apart : l ≠ place := by
      rintro rfl
      rcases free with missing | empty
      · exact absurd (missing.symm.trans there) nofun
      · exact filled (Option.some.inj (there.symm.trans empty))
    show (s.disk.put place _).node? l = some node
    rw [Disk.node?_put (place_ne_nil_of_free free), if_neg apart]
    exact there

private theorem Attaches.disk_eq_of_find? {attached : Attached}
    (attaches : Attaches s path attached t) {name : String}
    (there : (s.database attached.key).find? name ≠ none) : t.disk = s.disk := by
  cases attaches with
  | fleeting | device | found => rfl
  | made =>
    refine absurd ?_ there
    have new : s.database s.databases.length = .empty := by simp [Storage.database]
    show (s.database s.databases.length).find? name = none
    rw [new]
    rfl

/-- A configuration that is refused changes nothing, and whatever else goes wrong, all databases
keep their tables. A connection that is made leaves a database with a table of the name as it is,
but for its log, and adds an empty collection without a rank to any other; files and the other
databases stay. Asking for it again, however often and with whatever settings and tokenizer, changes
no table and no file, and leads to the same database if a file keeps it. -/
theorem connect_makes_missing {s : Storage}
    (known : ∀ key ∈ s.disk.storedKeys, key < s.databases.length) (path : Path) (config : Config) :
    let made := s.connect path config
    (∀ e, config.validate = .error e → made.result = .error (.invalidArgument e) ∧ made.state = s) ∧
    (∀ l node,
      s.disk.node? l = some node → node ≠ .file (.bytes []) → made.state.disk.node? l = some node) ∧
    (∀ e, made.result = .error e → ∀ key, (s.database key).SameTables (made.state.database key)) ∧
    ∀ c, made.result = .ok c →
      (∀ key, key ≠ c.key → made.state.database key = s.database key) ∧
      ((s.database c.key).find? config.collection ≠ none →
        made.state.disk = s.disk ∧ (s.database c.key).SameTables (made.state.database c.key)) ∧
      ((s.database c.key).find? config.collection = none →
        ∃ tokenizer, Tokenizer.ofSpecification config.tokenizer = .ok tokenizer ∧
          (made.state.database c.key).tables = (s.database c.key).tables ++
            [⟨config.collection, .indexed (.empty config.tokenizer tokenizer), []⟩]) ∧
      ∀ t, Reopens path config.collection made.state t →
        t.disk = made.state.disk ∧
        (∀ key < made.state.databases.length,
          (made.state.database key).SameTables (t.database key)) ∧
        ∀ config' c', Name.same config'.collection config.collection = true →
          (t.connect path config').result = .ok c' → IsFilePath path → c'.key = c.key := by
  intro made
  have refusal : ∀ e, config.validate = .error e →
    made.result = .error (.invalidArgument e) ∧ made.state = s := by
    intro e refused
    simp only [made, Storage.connect, refused]
    exact ⟨rfl, rfl⟩
  refine ⟨refusal, ?_⟩
  cases connecting known path config with
  | refused e result state =>
    refine ⟨fun l node there _ => ?_, fun _ _ key => ?_, fun c ok => ?_⟩
    · exact state ▸ there
    · exact Database.sameTables_iff.mpr (by rw [state])
    · cases result.symm.trans ok
  | @failed attached s' e result found changes tables =>
    have attaches := attaches_of_attach found
    refine ⟨fun l node there filled => ?_,
      fun _ _ key => Database.sameTables_iff.mpr ?_, fun c ok => ?_⟩
    · rw [changes.disk]
      exact attaches.node?_eq there filled
    · rw [← attaches.database key]
      by_cases here : key = attached.key
      · rw [here, tables]
      · rw [changes.others key here]
    · cases result.symm.trans ok
  | @connected attached s' c result found key medium steady collection opened
    changes writeAhead created =>
    have attaches := attaches_of_attach found
    refine ⟨fun l node there filled => ?_, fun e refused => ?_, fun c' ok => ?_⟩
    · rw [changes.disk]
      exact attaches.node?_eq there filled
    · cases result.symm.trans refused
    obtain rfl : c = c' := Except.ok.inj (result.symm.trans ok)
    rw [attaches.database] at created
    have inside : c.key < made.state.databases.length := by
      rw [key, changes.length]
      exact (attaches.known known).1
    have there : (made.state.database c.key).find? config.collection ≠ none := by
      rw [key]
      exact Database.find?_of_createCollection created
    refine ⟨fun other apart => ?_, fun found => ?_, fun missing => ?_, fun t reopens => ?_⟩
    · rw [changes.others other (key ▸ apart), attaches.database]
    · rw [key] at found ⊢
      exact ⟨changes.disk.trans (attaches.disk_eq_of_find? found),
        Database.sameTables_iff.mpr (tables_of_created found created)⟩
    · rw [key] at missing ⊢
      rcases Database.createCollection_cases created with ⟨-, found⟩ |
        ⟨-, -, tokenizer, specified, db⟩
      · exact absurd missing found
      · exact ⟨tokenizer, specified, by rw [db]⟩
    · have stored : ∀ key ∈ made.state.disk.storedKeys, key < made.state.databases.length := by
        rw [changes.disk, changes.length]
        exact (attaches.known known).2
      have kept : KeepsTables made.state t :=
        reopens.keepsTables attaches changes.disk stored (key ▸ inside) (key ▸ there)
      refine ⟨kept.disk, fun key inside => Database.sameTables_iff.mpr (kept.tables key inside), ?_⟩
      intro config' c' same ok file
      rw [key]
      refine
        (keepsTables_connect attaches (kept.disk.trans changes.disk) (fun key member => ?_) ?_).2 c'
        ok file
      · exact Nat.lt_of_lt_of_le (stored key (kept.disk ▸ member)) kept.grows
      · rw [Database.find?_congr same, find?_of_tables (kept.tables attached.key (key ▸ inside))]
        exact key ▸ there

/-- A store made where there was nothing, asked for again with a tokenizer that does not exist. -/
theorem connect_makes_missing_once :
    let s := ofDisk ⟨[], []⟩
    let path := Path.ofString "/d"
    let made := s.connect path {}
    let again := made.state.connect path { tokenizer := "nope" }
    (∀ key ∈ s.disk.storedKeys, key < s.databases.length) ∧ ∃ c, made.result = .ok c ∧
      (made.state.database c.key).tables =
        [⟨"documents", .indexed (.empty "unicode61" .standard), []⟩] ∧
      (made.state.database c.key).SameTables (again.state.database c.key) := by
  intro s path made again
  have known : ∀ key ∈ s.disk.storedKeys, key < s.databases.length := by decide
  have valid : Name.isName "documents" = true := by decide +kernel
  obtain ⟨c, ok, -⟩ := (absent_of_empty_tree.connect valid).2 (by decide +kernel)
  obtain ⟨-, -, -, opened⟩ := connect_makes_missing known path {}
  obtain ⟨-, -, added, reopened⟩ := opened c ok
  have nothing : (s.database c.key).find? "documents" = none := rfl
  obtain ⟨tokenizer, specified, tables⟩ := added nothing
  obtain rfl : Tokenizer.standard = tokenizer :=
    Except.ok.inj (Database.ofSpecification_standard.symm.trans specified)
  obtain ⟨-, same, -⟩ :=
    reopened again.state (.connect .refl { tokenizer := "nope" } (Name.same_refl _))
  refine ⟨known, c, ok, tables, same c.key ?_⟩
  by_contra beyond
  have empty : made.state.database c.key = .empty := by
    rw [database, List.getElem?_eq_none (Nat.le_of_not_lt beyond)]
    rfl
  rw [empty] at tables
  cases tables

end Storage

end TextArchive.Store
