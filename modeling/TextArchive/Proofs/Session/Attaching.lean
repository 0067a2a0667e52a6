import TextArchive.Proofs.Session.Following
import TextArchive.Proofs.Session.Shown

/-!
How paths lead to databases: to a new one that no file keeps, to one that a file keeps, or to a new
one in a new file. The databases that there were stay as they are, and a path that has led to a file
leads to its database again.
-/

set_option autoImplicit false
set_option relaxedAutoImplicit false

namespace TextArchive

open TextArchive.File (Content Disk Location Name Node Path)

namespace File.Disk

variable {disk : Disk} {place : Location} {node : Node}

private theorem node?_eq_head? (disk : Disk) {l : Location} (below : l ≠ []) :
    disk.node? l = (disk.entries.filter (·.1 = l)).head?.map (·.2) := by
  simp [node?, below]

theorem node?_put (below : place ≠ []) (l : Location) :
    (disk.put place node).node? l = if l = place then some node else disk.node? l := by
  by_cases top : l = []
  · simp [node?, top, Ne.symm below]
  rw [node?_eq_head? _ top, node?_eq_head? _ top]
  simp only [put, List.filter_append, List.filter_filter]
  by_cases here : l = place
  · have gone : disk.entries.filter (fun entry => decide (entry.1 = l) && decide
      (entry.1 ≠ place)) = [] := by
      refine List.filter_eq_nil_iff.mpr fun entry _ => ?_
      simp [here]
    rw [gone]
    simp [here]
  · have kept : disk.entries.filter (fun entry => decide (entry.1 = l) && decide
      (entry.1 ≠ place)) =
        disk.entries.filter (·.1 = l) := by
      refine List.filter_congr fun entry _ => ?_
      by_cases same : entry.1 = l <;> simp [same, here]
    rw [kept]
    simp [Ne.symm here, here]

private theorem agree_put (below : place ≠ []) (bare : disk.Bare place) (content : Content) :
    Agree [place] disk (disk.put place (.file content)) where
  workingDirectory := rfl
  entries := by
    intro keep none
    have dropped : keep place = false := none place List.mem_cons_self
    simp only [put, List.filter_append, List.filter_filter, List.filter_cons, dropped,
      Bool.false_eq_true, if_false, List.filter_nil, List.append_nil]
    refine List.filter_congr fun entry _ => ?_
    by_cases here : entry.1 = place
    · simp [here, dropped]
    · simp [here]
  nodes := by
    intro l member
    rw [List.mem_singleton.mp member]
    refine .inr ⟨bare, fun node there => ?_⟩
    rw [node?_put below, if_pos rfl] at there
    cases there
    rfl

private theorem mem_storedKeys_of_node? {key : Nat}
    (found : disk.node? place = some (.file (.stored key))) :
    key ∈ disk.storedKeys := by
  unfold node? at found
  split at found
  · cases found
  · obtain ⟨entry, here, node⟩ := Option.map_eq_some_iff.mp found
    exact List.mem_filterMap.mpr ⟨entry, List.mem_of_find?_eq_some here, by rw [node]; rfl⟩

private theorem mem_storedKeys_put {key : Nat} (h : key ∈ (disk.put place node).storedKeys) :
    key ∈ disk.storedKeys ∨ node.key? = some key := by
  obtain ⟨entry, member, stored⟩ := List.mem_filterMap.mp h
  rcases List.mem_append.mp member with old | new
  · exact .inl (List.mem_filterMap.mpr ⟨entry, (List.mem_filter.mp old).1, stored⟩)
  · rw [List.mem_singleton.mp new] at stored
    exact .inr stored

end File.Disk

namespace Store.Storage

/-- Whether the database of a path is kept in a file. -/
def IsFilePath (path : Path) : Prop :=
  path ≠ memoryPath ∧ path.bytes ≠ []

/-- How a path leads to a database, with the storage after it. -/
inductive Attaches (s : Storage) (path : Path) : Attached → Storage → Prop
  | fleeting (medium : Medium) (unkept : medium ≠ .file) (nowhere : ¬ IsFilePath path) :
      Attaches s path (s.add medium).1 (s.add medium).2
  | device {place : Location} (kept : IsFilePath path)
      (leads : databasePlace? s.disk path = some place)
      (there : s.disk.node? place = some .device) :
      Attaches s path (s.add .device).1 (s.add .device).2
  | found {place : Location} {key : Nat} (kept : IsFilePath path)
      (leads : databasePlace? s.disk path = some place)
      (there : s.disk.node? place = some (.file (.stored key))) : Attaches s path ⟨key, .file⟩ s
  | made {place : Location} (kept : IsFilePath path)
      (leads : databasePlace? s.disk path = some place)
      (free : s.disk.node? place = none ∨ s.disk.node? place = some (.file (.bytes []))) :
      Attaches s path (s.addAt place).1 (s.addAt place).2

/-- A path of one name directly below the top. -/
structure IsTopPath (path : Path) (name : Name) : Prop where
  absolute : path.isAbsolute = true
  segments : path.segments = [name]
  named : name ≠ File.here ∧ name ≠ File.above
  short : name.length ≤ Disk.longestName

namespace IsTopPath

variable {path : Path} {name : Name} (top : IsTopPath path name)
include top

theorem isFilePath : IsFilePath path := by
  constructor
  · rintro rfl
    have relative : memoryPath.isAbsolute = false := by decide +kernel
    exact Bool.false_ne_true (relative.symm.trans top.absolute)
  · intro empty
    have segments := top.segments
    rw [Path.segments, empty] at segments
    cases segments

theorem databasePlace?_eq {disk : Disk}
    (unlinked : ∀ target, disk.node? [name] ≠ some (.link target)) :
    databasePlace? disk path = some [name] := by
  have length : (Path.ofLocation [name]).bytes.length = name.length + 1 := by
    simp [Path.ofLocation, Path.join, Path.endsInSlash]
  have short := top.short
  unfold Disk.longestName at short
  have passable : Passable disk [] name := ⟨top.named.1, top.named.2, top.short, by
    rw [List.nil_append, length]
    unfold longestPlace
    omega, rfl⟩
  have room : (Path.ofLocation [name]).bytes.length < longestDatabasePlace := by
    rw [length]
    unfold longestDatabasePlace
    omega
  rw [databasePlace?_eq_some_iff, if_pos top.absolute, top.segments]
  exact ⟨.down passable unlinked .arrived, room, rfl⟩

end IsTopPath

theorem isTopPath_d : IsTopPath (.ofString "/d") [100] :=
  ⟨by decide +kernel, by decide +kernel, by decide +kernel, by decide⟩

theorem attaches_of_attach {s s' : Storage} {path : Path} {mayCreate : Bool} {attached : Attached}
    (found : s.attach path mayCreate = .ok (attached, s')) : Attaches s path attached s' := by
  unfold attach at found
  split at found
  · cases found
  split at found
  · rename_i memory
    cases found
    exact .fleeting .memory nofun fun kept => kept.1 memory
  rename_i not_memory
  split at found
  · rename_i empty
    cases found
    exact .fleeting .temporary nofun fun kept => kept.2 (by simpa using empty)
  rename_i filled
  have kept : IsFilePath path := ⟨not_memory, by simpa using filled⟩
  split at found
  · cases found
  rename_i place leads
  split at found
  · rename_i there
    cases found
    exact .found kept leads there
  · rename_i there
    cases found
    exact .made kept leads (.inr there)
  · cases found
  · cases found
  · rename_i there
    cases found
    exact .device kept leads there
  · cases found
  · rename_i there
    split at found
    · cases found
      exact .made kept leads (.inl there)
    · cases found

section File

variable {s : Storage} {path : Path} {place : Location} (whole : path.bytes.findIdx? (· = 0) = none)
  (kept : IsFilePath path) (leads : databasePlace? s.disk path = some place)
include whole kept leads

theorem attach_stored {key : Nat} (there : s.disk.node? place = some (.file (.stored key)))
    (mayCreate : Bool) :
    s.attach path mayCreate = .ok (⟨key, .file⟩, s) := by
  have filled : path.bytes.isEmpty = false := by simpa using kept.2
  simp only [attach, whole, kept.1, filled, leads, there]
  rfl

theorem attach_missing (missing : s.disk.node? place = none) :
    s.attach path true = .ok (s.addAt place) := by
  have filled : path.bytes.isEmpty = false := by simpa using kept.2
  simp only [attach, whole, kept.1, filled, leads, missing]
  rfl

end File

variable {s s' : Storage} {path : Path} {attached : Attached}

theorem connect_of_attach {config : Config} (valid : config.validate = .ok ())
    (found : s.attach path true = .ok (attached, s'))
    (accepted : s'.journalRefusal? attached config.pragmas = none)
    (closed : unclosedSetting? config.pragmas = none) :
    s.connect path config = s'.connectAttached path config attached := by
  simp only [connect, valid, found, accepted, closed]

/-- The journal mode of a database that has no log can be set to any mode that is read to its end,
unless the database is a device. -/
theorem journalRefusal?_eq_none {pragmas : Pragmas}
    (closed : Statement.unclosedSetting? "journal_mode" pragmas.journalMode = none)
    (steady : attached.medium ≠ .device) (unlogged : (s.database attached.key).writeAhead = false) :
    s.journalRefusal? attached pragmas = none := by
  simp [journalRefusal?, closed, steady, unlogged]

theorem place_ne_nil_of_free {disk : Disk} {place : Location}
    (free : disk.node? place = none ∨
    disk.node? place = some (.file (.bytes []))) : place ≠ [] := by
  rintro rfl
  simp [Disk.node?] at free

theorem bare_of_free {disk : Disk} {place : Location}
    (free : disk.node? place = none ∨
    disk.node? place = some (.file (.bytes []))) : disk.Bare place := by
  intro node there
  rcases free with missing | empty
  · rw [missing] at there
    cases there
  · rw [empty] at there
    cases there
    rfl

theorem database_add (s : Storage) (medium : Medium) (key : Nat) :
    (s.add medium).2.database key = s.database key := by
  simp only [add, database, List.getElem?_append]
  split
  · rfl
  · rename_i beyond
    rw [List.getElem?_eq_none (Nat.le_of_not_lt beyond)]
    cases key - s.databases.length <;> rfl

namespace Attaches

variable (attaches : Attaches s path attached s')
include attaches

theorem grows : s.databases.length ≤ s'.databases.length := by
  cases attaches with
  | fleeting | device => simp [add]
  | found => exact Nat.le_refl _
  | made => simp [addAt, add]

theorem database (key : Nat) : s'.database key = s.database key := by
  cases attaches with
  | fleeting medium => exact s.database_add medium key
  | device => exact s.database_add .device key
  | found => rfl
  | made => exact s.database_add .file key

private theorem connected : s'.connected = s.connected := by
  cases attaches <;> rfl

theorem medium_of_lt (inside : attached.key < s.databases.length) : attached.medium = .file := by
  cases attaches with
  | fleeting | device => simp [add] at inside
  | found | made => rfl

theorem medium_of_isFilePath (kept : IsFilePath path) (steady : attached.medium ≠ .device) :
    attached.medium = .file := by
  cases attaches with
  | fleeting _ _ nowhere => exact absurd kept nowhere
  | device => exact absurd rfl steady
  | found | made => rfl

variable (before : ∀ key ∈ s.disk.storedKeys, key < s.databases.length)
include before

omit attaches in
private theorem known_add (medium : Medium) : (s.add medium).1.key <
    (s.add medium).2.databases.length ∧
    ∀ key ∈ (s.add medium).2.disk.storedKeys, key < (s.add medium).2.databases.length :=
  ⟨by simp [add], fun key member => Nat.lt_of_lt_of_le (before key member) (by simp [add])⟩

theorem known : attached.key < s'.databases.length ∧
    ∀ key ∈ s'.disk.storedKeys, key < s'.databases.length := by
  cases attaches with
  | fleeting medium => exact known_add before medium
  | device => exact known_add before .device
  | found _ _ there => exact ⟨before _ (File.Disk.mem_storedKeys_of_node? there), before⟩
  | made =>
    refine ⟨by simp [addAt, add], fun key member => ?_⟩
    rcases File.Disk.mem_storedKeys_put member with old | new
    · exact Nat.lt_of_lt_of_le (before key old) (by simp [addAt, add])
    · have here : key = s.databases.length := by simpa [File.Node.key?, add] using new.symm
      simp [addAt, add, here]

/-- Nothing but the database that a path leads to can look different afterwards. -/
theorem beside : Beside attached.key (s'.placesOf attached.key) s s' where
  disks := by
    cases attaches with
    | fleeting | device | found => exact .refl _ _
    | @made place _ _ free =>
      refine (File.Disk.agree_put (place_ne_nil_of_free free) (bare_of_free free) _).mono ?_
      intro l member
      rw [List.mem_singleton.mp member]
      have recorded : (place, .file (.stored s.databases.length)) ∈
        (s.addAt place).2.disk.entries :=
        List.mem_append_right _ List.mem_cons_self
      exact mem_placesOf recorded rfl
  kept := by
    intro entry member stored
    cases attaches with
    | fleeting | device | found => exact mem_placesOf member stored
    | made =>
      have old := before _ (List.mem_filterMap.mpr ⟨entry, member, stored⟩)
      exact absurd old (by simp [addAt, add])
  databases other _ _ := attaches.database other
  connected other _ _ := by rw [attaches.connected]

end Attaches

section Put

variable {disk : Disk} {place : Location} {content : Content}
  (free : disk.node? place = none ∨ disk.node? place = some (.file (.bytes [])))
include free

private theorem node?_put_free (content : Content) (l : Location) :
    (disk.put place (.file content)).node? l = disk.node? l ∨
      (disk.put place (.file content)).node? l = some (.file content) ∧ disk.Bare l := by
  rw [Disk.node?_put (place_ne_nil_of_free free)]
  by_cases here : l = place
  · rw [if_pos here, here]
    exact .inr ⟨rfl, bare_of_free free⟩
  · rw [if_neg here]
    exact .inl rfl

private theorem passable_of_put {l : Location} {name : Name}
    (passable : Passable (disk.put place (.file content)) l name) : Passable disk l name := by
  refine { passable with through := ?_ }
  have through := passable.through
  rcases node?_put_free free content l with same | ⟨file, -⟩
  · rwa [same] at through
  · rw [file] at through
    simp at through

private theorem leads_of_put {links : Nat} {l target : Location} {segments : List Name}
    (leads : Leads (disk.put place (.file content)) links l segments target) :
    Leads disk links l segments target := by
  induction leads with
  | arrived => exact .arrived
  | stays _ ih => exact .stays ih
  | rises _ ih => exact .rises ih
  | @link links l _ name _ _ passable there _ ih =>
    refine .link (passable_of_put free passable) ?_ ih
    rcases node?_put_free free content (l ++ [name]) with same | ⟨file, -⟩
    · rwa [same] at there
    · cases file.symm.trans there
  | @down links l _ name _ passable no_link _ ih =>
    refine .down (passable_of_put free passable) (fun target there => ?_) ih
    rcases node?_put_free free content (l ++ [name]) with same | ⟨-, bare⟩
    · exact no_link target (same.trans there)
    · simpa [Node.isRegular] using bare _ there

private theorem databasePlace?_put {target : Location}
    (led : databasePlace? (disk.put place (.file content)) path = some target) :
    databasePlace? disk path = some target := by
  rw [databasePlace?_eq_some_iff] at led ⊢
  obtain ⟨leads, short, directory⟩ := led
  refine ⟨leads_of_put free leads, short, ?_⟩
  rcases node?_put_free free content target.dropLast with same | ⟨file, -⟩
  · rwa [same] at directory
  · cases file.symm.trans directory

end Put

/-- A path that has led to a file leads to the same database again, and makes nothing more. -/
theorem Attaches.again (attaches : Attaches s path attached s') {t t' : Storage}
    (same : t.disk = s'.disk) {attached' : Attached} (again : Attaches t path attached' t') :
    t'.disk = t.disk ∧ (attached'.medium = .file → attached'.key = attached.key) := by
  cases again with
  | fleeting medium unkept => exact ⟨rfl, fun file => absurd file unkept⟩
  | device => exact ⟨rfl, nofun⟩
  | found kept leads there =>
    refine ⟨rfl, fun _ => ?_⟩
    rw [same] at leads there
    cases attaches with
    | fleeting _ _ nowhere => exact absurd kept nowhere
    | device _ leads' there' =>
      obtain rfl := Option.some.inj (leads'.symm.trans leads)
      cases there'.symm.trans there
    | found _ leads' there' =>
      obtain rfl := Option.some.inj (leads'.symm.trans leads)
      cases there'.symm.trans there
      rfl
    | made _ leads' free =>
      have placed := databasePlace?_put free leads
      rw [leads'] at placed
      cases placed
      rw [show (s.addAt _).2.disk = s.disk.put _ _ from rfl,
        Disk.node?_put (place_ne_nil_of_free free), if_pos rfl] at there
      cases there
      rfl
  | made kept leads free =>
    rw [same] at leads free
    cases attaches with
    | fleeting _ _ nowhere => exact absurd kept nowhere
    | device _ leads' there' | found _ leads' there' =>
      obtain rfl := Option.some.inj (leads'.symm.trans leads)
      rcases free with missing | empty
      · cases there'.symm.trans missing
      · cases there'.symm.trans empty
    | made _ leads' free' =>
      have placed := databasePlace?_put free' leads
      rw [leads'] at placed
      cases placed
      rw [show (s.addAt _).2.disk = s.disk.put _ _ from rfl,
        Disk.node?_put (place_ne_nil_of_free free'), if_pos rfl] at free
      simp at free

end Store.Storage

end TextArchive
