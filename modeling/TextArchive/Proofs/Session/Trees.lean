import TextArchive.Proofs.File.Absolute
import TextArchive.Proofs.Session.Connecting

/-!
Storages over trees of directories. What shows itself is a tree as well, with the files beside
databases, and it stays one when a path has led to a new database.
-/

set_option autoImplicit false
set_option relaxedAutoImplicit false

namespace TextArchive

open TextArchive.File (Content Disk IsSegment Location Name Node Path ProperName)

namespace File.Disk

variable {disk : Disk}

private theorem node?_of_mem {entry : Location × Node} (member : entry ∈ disk.entries) :
    (disk.node? entry.1).isSome := by
  unfold node?
  split
  · rfl
  · simpa using ⟨entry.2, member⟩

private theorem Tree.put (tree : disk.Tree) {place : Location} (below : place ≠ [])
    (bare : disk.Bare place) (inside : disk.node? place.dropLast = some .directory)
    (names : ∀ name ∈ place, ProperName name ∧ (0 : UInt8) ∉ name) (content : Content) :
    (disk.put place (.file content)).Tree := by
  have directory : ∀ {l}, disk.node? l = some .directory →
      (disk.put place (.file content)).node? l = some .directory := by
    intro l there
    have apart : l ≠ place := by
      rintro rfl
      simpa [Node.isRegular] using bare _ there
    rw [node?_put below, if_neg apart]
    exact there
  have entry : ∀ entry ∈ (disk.put place (.file content)).entries,
      entry ∈ disk.entries ∨ entry = (place, .file content) := by
    intro entry member
    exact (List.mem_append.mp member).imp
      (fun old => (List.mem_filter.mp old).1) List.mem_singleton.mp
  refine ⟨⟨?_, fun e member => ?_⟩, fun e member => ?_, fun e member => ?_,
    directory tree.workingDirectory⟩
  · have kept : ((disk.entries.filter (·.1 ≠ place)).map (·.1)).Nodup :=
      tree.once.sublist (List.filter_sublist.map _)
    simp only [Disk.put, List.map_append, List.map_singleton]
    refine List.nodup_append.mpr ⟨kept, List.nodup_singleton _, ?_⟩
    simp
  · rcases entry e member with old | rfl
    · exact tree.proper e old
    · exact fun name here => (names name here).1
  · rcases entry e member with old | rfl
    · exact directory (tree.rooted e old)
    · exact directory inside
  · rcases entry e member with old | rfl
    · exact tree.whole e old
    · exact fun name here => (names name here).2

end File.Disk

namespace Store.Storage

variable {s : Storage}

section Beside

private theorem sideSuffix_spec {suffix : String} (member : suffix ∈ sideSuffixes) :
    (Text.Utf8.ofString suffix).length = 4 ∧ (0 : UInt8) ∉ Text.Utf8.ofString suffix ∧
      File.slash ∉ Text.Utf8.ofString suffix := by
  have each : ∀ suffix ∈ sideSuffixes, (Text.Utf8.ofString suffix).length = 4 ∧
      (0 : UInt8) ∉ Text.Utf8.ofString suffix ∧
        File.slash ∉ Text.Utf8.ofString suffix := by decide +kernel
  exact each suffix member

private theorem disjoint_placesBeside {place other : Location} (apart : place ≠ other)
    (filled : ∀ name ∈ place, name ≠ []) (filled' : ∀ name ∈ other, name ≠ []) :
    List.Disjoint (placesBeside place) (placesBeside other) := by
  intro side here there
  obtain ⟨suffix, member, rfl⟩ := List.mem_map.mp here
  obtain ⟨suffix', member', same⟩ := List.mem_map.mp there
  have lengths : (Text.Utf8.ofString suffix').length = (Text.Utf8.ofString suffix).length :=
    (sideSuffix_spec member').1.trans (sideSuffix_spec member).1.symm
  obtain ⟨above, last⟩ := List.append_inj' same rfl
  obtain ⟨last, -⟩ := List.append_inj' (List.singleton_inj.mp last) lengths
  rcases List.eq_nil_or_concat place with rfl | ⟨l, name, rfl⟩ <;>
    rcases List.eq_nil_or_concat other with rfl | ⟨l', name', rfl⟩
  · exact apart rfl
  · exact filled' name' (by simp) (by simpa using last)
  · exact filled name (by simp) (by simpa using last.symm)
  · exact apart (by simpa using And.intro above.symm last.symm)

private theorem nodup_placesBeside (place : Location) : (placesBeside place).Nodup := by
  have suffixes : (sideSuffixes.map Text.Utf8.ofString).Nodup := by decide +kernel
  have places : placesBeside place = (sideSuffixes.map Text.Utf8.ofString).map fun suffix =>
      place.dropLast ++ [place.getLast?.getD [] ++ suffix] := by
    simp [placesBeside, Function.comp_def]
  rw [places]
  exact suffixes.map fun suffix suffix' same => by simpa using same

private theorem names_placesBeside {place side : Location} (beside : side ∈ placesBeside place)
    (names : ∀ name ∈ place, ProperName name ∧ (0 : UInt8) ∉ name)
    (short : (side.getLast?.getD []).length ≤ Disk.longestName) :
    side.dropLast = place.dropLast ∧ ∀ name ∈ side, ProperName name ∧ (0 : UInt8) ∉ name := by
  obtain ⟨suffix, member, rfl⟩ := List.mem_map.mp beside
  obtain ⟨length, whole, segment⟩ := sideSuffix_spec member
  refine ⟨by simp, fun name inside => ?_⟩
  rcases List.mem_append.mp inside with above | last
  · exact names name (List.dropLast_subset place above)
  · obtain rfl := List.mem_singleton.mp last
    have front : File.slash ∉ place.getLast?.getD [] ∧ (0 : UInt8) ∉ place.getLast?.getD [] := by
      cases named : place.getLast? with
      | none => simp
      | some name =>
        obtain ⟨proper, whole⟩ := names name (List.mem_of_getLast? named)
        exact ⟨proper.whole, whole⟩
    have long : 4 ≤ (place.getLast?.getD [] ++ Text.Utf8.ofString suffix).length := by
      rw [List.length_append, length]
      omega
    refine ⟨⟨⟨List.ne_nil_of_length_pos (by omega), ?_⟩, ?_, ?_, by simpa using short⟩, ?_⟩
    · simpa using ⟨front.1, segment⟩
    · exact fun same => by simp [same, File.here] at long
    · exact fun same => by simp [same, File.above] at long
    · simpa using ⟨front.2, whole⟩

end Beside

section Shown

variable (tree : s.disk.Tree)
include tree

private theorem names_of_mem {entry : Location × Node} (listed : entry ∈ s.disk.entries) :
    ∀ name ∈ entry.1, ProperName name ∧ (0 : UInt8) ∉ name :=
  fun name here => ⟨tree.proper entry listed name here, tree.whole entry listed name here⟩

private theorem side_spec {side : Location × Node}
    (member : side ∈ (s.disk.entries.flatMap s.sideFiles).filter
      fun side => hasRoom s.disk side.1) :
    s.disk.node? side.1 = none ∧ s.disk.node? side.1.dropLast = some .directory ∧
      ∀ name ∈ side.1, ProperName name ∧ (0 : UInt8) ∉ name := by
  obtain ⟨member, room⟩ := List.mem_filter.mp member
  obtain ⟨entry, listed, beside⟩ := List.mem_flatMap.mp member
  obtain ⟨free, short⟩ := (Bool.and_eq_true _ _).mp room
  obtain ⟨above, proper⟩ := names_placesBeside (s.of_mem_sideFiles beside).1
    (names_of_mem tree listed)
    (by simpa using short)
  exact ⟨by simpa using free, above ▸ tree.rooted entry listed, proper⟩

private theorem nodup_sides : ((s.disk.entries.flatMap s.sideFiles).map (·.1)).Nodup := by
  have beside : ∀ entry, ((s.sideFiles entry).map (·.1)).Sublist (placesBeside entry.1) := by
    intro entry
    unfold sideFiles
    split
    · split
      · simp [placesBeside, Function.comp_def]
      · simp
    · simp
  have filled : ∀ entry ∈ s.disk.entries, ∀ name ∈ entry.1, name ≠ [] :=
    fun entry listed name here => (names_of_mem tree listed name here).1.filled
  rw [List.map_flatMap]
  refine List.nodup_flatMap.mpr
    ⟨fun entry _ => (nodup_placesBeside entry.1).sublist (beside entry), ?_⟩
  refine (List.pairwise_map.mp tree.once).imp_of_mem fun {entry other} listed listed' apart => ?_
  intro place here there
  exact disjoint_placesBeside apart (filled entry listed) (filled other listed')
    ((beside entry).subset here)
    ((beside other).subset there)

private theorem tree_shown : s.shown.Tree := by
  have directory : ∀ {l}, s.disk.node? l = some .directory → s.shown.node? l = some .directory :=
    fun there => s.node?_shown there
  have entries : ∀ entry ∈ s.shown.entries, s.disk.node? entry.1.dropLast = some .directory ∧
      ∀ name ∈ entry.1, ProperName name ∧ (0 : UInt8) ∉ name := by
    intro entry member
    rcases List.mem_append.mp member with listed | side
    · obtain ⟨original, here, rfl⟩ := List.mem_map.mp listed
      have proper : ∀ name ∈ original.1, ProperName name ∧
        (0 : UInt8) ∉ name := names_of_mem tree here
      exact ⟨tree.rooted original here, proper⟩
    · exact (side_spec tree side).2
  refine ⟨⟨?_, fun entry member name here => ((entries entry member).2 name here).1⟩,
    fun entry member => directory (entries entry member).1,
    fun entry member name here => ((entries entry member).2 name here).2,
      directory tree.workingDirectory⟩
  simp only [shown, List.map_append, List.map_map]
  refine List.nodup_append.mpr
    ⟨tree.once, (nodup_sides tree).sublist (List.filter_sublist.map _), ?_⟩
  rintro place listed _ member rfl
  obtain ⟨entry, here, rfl⟩ := List.mem_map.mp listed
  obtain ⟨side, member, same⟩ := List.mem_map.mp member
  have there := File.Disk.node?_of_mem here
  rw [show entry.1 = side.1 from same.symm, (side_spec tree member).1] at there
  cases there

end Shown

/-- A tree of files whose links name no zero byte, with the databases that it keeps. -/
structure Grounded (s : Storage) : Prop where
  tree : s.disk.Tree
  links : ∀ l target, s.disk.node? l = some (.link target) → (0 : UInt8) ∉ target
  known : ∀ key ∈ s.disk.storedKeys, key < s.databases.length

private theorem names_of_leads {disk : Disk}
    (linked : ∀ l target, disk.node? l = some (.link target) → (0 : UInt8) ∉ target) {links : Nat}
    {l place : Location} {segments : List Name}
    (start : ∀ name ∈ l, ProperName name ∧ (0 : UInt8) ∉ name)
    (whole : ∀ name ∈ segments, IsSegment name ∧ (0 : UInt8) ∉ name)
    (leads : Leads disk links l segments place) :
    ∀ name ∈ place, ProperName name ∧ (0 : UInt8) ∉ name := by
  induction leads with
  | arrived => exact start
  | stays _ ih => exact ih start (List.forall_mem_cons.mp whole).2
  | rises _ ih =>
    exact ih (fun name here => start name (List.dropLast_subset _ here))
      (List.forall_mem_cons.mp whole).2
  | link _ there _ ih =>
    refine ih ?_ fun other member => ?_
    · split
      · simp
      · exact start
    · rcases List.mem_append.mp member with inside | later
      · obtain ⟨segment, within⟩ := Path.of_mem_segments inside
        exact ⟨segment, fun zero => linked _ _ there (within 0 zero)⟩
      · exact (List.forall_mem_cons.mp whole).2 other later
  | down passable _ _ ih =>
    obtain ⟨first, others⟩ := List.forall_mem_cons.mp whole
    refine ih (fun other member => ?_) others
    rcases List.mem_append.mp member with before | last
    · exact start other before
    · exact List.mem_singleton.mp last ▸
        ⟨⟨first.1, passable.moves, passable.down, passable.short⟩, first.2⟩

namespace Grounded

variable {path : Path} (grounded : s.Grounded)
include grounded

private theorem place_spec {place : Location} (whole : path.bytes.findIdx? (· = 0) = none)
    (leads : databasePlace? s.disk path = some place) :
    s.disk.node? place.dropLast = some .directory ∧ ∀ name ∈ place, ProperName name ∧
    (0 : UInt8) ∉ name := by
  obtain ⟨leads, -, directory⟩ := databasePlace?_eq_some_iff.mp leads
  refine ⟨directory, names_of_leads grounded.links ?_ ?_ leads⟩
  · split
    · simp
    · exact grounded.tree.names grounded.tree.workingDirectory
  · intro name member
    obtain ⟨segment, within⟩ := Path.of_mem_segments member
    have clean : (0 : UInt8) ∉ path.bytes := by
      intro zero
      simpa using List.findIdx?_eq_none_iff.mp whole 0 zero
    exact ⟨segment, fun zero => clean (within 0 zero)⟩

private theorem tree_of_attach {attached : Attached} {s' : Storage}
    (found : s.attach path true = .ok (attached, s')) :
    s'.disk.Tree := by
  have whole : path.bytes.findIdx? (· = 0) = none := by
    cases zero : path.bytes.findIdx? (· = 0) with
    | none => rfl
    | some position => simp [attach, zero] at found
  cases attaches_of_attach found with
  | fleeting => exact grounded.tree
  | device => exact grounded.tree
  | found => exact grounded.tree
  | made _ leads free =>
    obtain ⟨directory, names⟩ := grounded.place_spec whole leads
    exact grounded.tree.put (place_ne_nil_of_free free) (bare_of_free free) directory names _

/-- A storage shows a tree, and so it does when a connection has been made. -/
theorem tree_of_connect {config : Config} {c : Connection}
    (made : (s.connect path config).result = .ok c) :
    s.shown.Tree ∧ (s.connect path config).state.shown.Tree := by
  refine ⟨tree_shown grounded.tree, tree_shown ?_⟩
  obtain ⟨attached, s', found, -, -, -, -, -, changes, -⟩ := connected_of_ok grounded.known made
  rw [changes.disk]
  exact grounded.tree_of_attach found

end Grounded

end Store.Storage

end TextArchive
