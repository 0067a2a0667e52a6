import Mathlib.Data.List.Infix
import Mathlib.Data.List.Permutation
import TextArchive.Ingest.Run
import TextArchive.Proofs.File.Scan

/-!
The files of a folder: whatever stands below a directory, the folder of a path to it gives the
regular files and the links to such files that can be reached over directories, each of them once
and in the order of their names. What lies below a directory is left out if the path of the
directory is too long for it to be listed.
-/

set_option autoImplicit false
set_option relaxedAutoImplicit false

namespace TextArchive.Ingest.Folder

open TextArchive.File

variable {disk : Disk} {folder : Folder} {path : Path} {root : Location}

theorem files_itemsOf (visits : List Visit) :
    (folder.itemsOf visits).filterMap SourceItem.file? = visits.filterMap Visit.file? := by
  rw [itemsOf, List.filterMap_filterMap]
  refine List.filterMap_congr fun visit _ => ?_
  cases visit <;> rfl

theorem files_items (disk : Disk) : (folder.items disk).filterMap SourceItem.file? =
    Walk.filesBelow disk folder.root :=
  files_itemsOf _

/-- Names that lead from the root of a folder over directories that can be listed to a file. -/
structure Reaches (disk : Disk) (folder : Folder) (root : Location) (names : List Name) : Prop where
  below : names ≠ []
  passed : ∀ above, above <+: names → above ≠ names → disk.node? (root ++ above) = some .directory ∧
    (above.foldl Path.join folder.root).bytes.length < Disk.pathLimit
  file : Walk.CountsAsFile disk folder.root root names

theorem exists_ofPath (reached : disk.resolve path = .ok root)
    (directory : disk.node? root = some .directory) :
    ∃ folder, ofPath disk path = .ok folder ∧
    path.absolute? disk.workingDirectory = some folder.root := by
  have filled := Disk.filled_of_resolve reached
  have is_directory : disk.isDirectory path = true :=
    Disk.isDirectory_iff.mpr ⟨root, reached, directory⟩
  have not_empty : path.bytes.isEmpty = false := by simpa using filled
  unfold ofPath
  rw [if_pos is_directory]
  unfold Path.absolute?
  simp only [not_empty, Bool.false_eq_true, if_false]
  exact ⟨_, rfl, rfl⟩

theorem of_ofPath (found : ofPath disk path = .ok folder) :
    ∃ root, disk.resolve path = .ok root ∧ disk.node? root = some .directory ∧
      path.absolute? disk.workingDirectory = some folder.root := by
  by_cases is_directory : disk.isDirectory path = true
  · obtain ⟨root, reached, directory⟩ := Disk.isDirectory_iff.mp is_directory
    obtain ⟨folder', found', form⟩ := exists_ofPath reached directory
    obtain rfl : folder' = folder := Except.ok.inj (found'.symm.trans found)
    exact ⟨root, reached, directory, form⟩
  · simp [ofPath, is_directory] at found

section Directory

variable (tree : disk.Tree) (reached : disk.resolve path = .ok root)
    (directory : disk.node? root = some .directory)
  (form : path.absolute? disk.workingDirectory = some folder.root)
include tree reached directory form

theorem placed_root : Walk.Placed disk folder.root root [] ⟨folder.root, .start⟩ := by
  refine ⟨rfl, ⟨.directory, ?_, .inr ⟨rfl, rfl⟩⟩, fun _ => ?_⟩
  · rwa [List.append_nil]
  · rw [List.append_nil]
    exact (Disk.descend_absolute tree reached directory form).2.2

theorem listable_iff {names : List Name} :
    Walk.Listable disk folder.root root names ↔ disk.node? (root ++ names) = some .directory ∧
      (names.foldl Path.join folder.root).bytes.length < Disk.pathLimit := by
  obtain ⟨filled, clean, -⟩ := Disk.resolve_absolute tree reached directory form
  refine and_congr_right fun there => ?_
  have whole : ∀ name ∈ names, (0 : UInt8) ∉ name := fun name member =>
    (tree.names there name (List.mem_append_right root member)).2
  rw [Path.refusal?_of_clean (Path.joined_ne_nil filled names) (Path.zero_not_mem_joined clean whole)]
  simp

private theorem foundBelow_root {names : List Name} :
    Walk.FoundBelow disk folder.root root [] names ↔ Reaches disk folder root names := by
  constructor
  · intro found
    refine ⟨?_, fun above before other => ?_, found.file⟩
    · rintro rfl
      exact Walk.no_file_of_directory (by rwa [List.append_nil]) found.file
    · exact (listable_iff tree reached directory form).mp
        (found.passed above List.nil_prefix before other)
  · intro reaches
    refine ⟨List.nil_prefix, fun above _ before other => ?_, reaches.file⟩
    exact (listable_iff tree reached directory form).mpr (reaches.passed above before other)

theorem segments_joined {names : List Name} (reaches : Reaches disk folder root names) :
    (names.foldl Path.join folder.root).segments = folder.root.segments ++ names := by
  obtain ⟨filled, -, -⟩ := Disk.resolve_absolute tree reached directory form
  obtain ⟨node, there, -⟩ := reaches.file
  exact Path.segments_joined filled fun name member =>
    (tree.names there name (List.mem_append_right root member)).1.toIsSegment

/-- Above a file that is reached, paths lead to the directories that are walked over. -/
theorem resolve_above {names above : List Name} (reaches : Reaches disk folder root names)
    (before : above <+: names) (other : above ≠ names) :
    disk.resolve (above.foldl Path.join folder.root) = .ok (root ++ above) := by
  obtain ⟨-, -, resolved⟩ := Disk.resolve_absolute tree reached directory form
  have short := (reaches.passed [] List.nil_prefix reaches.below.symm).2
  rw [List.foldl_nil] at short
  obtain ⟨node, there, -⟩ := reaches.file
  refine Walk.resolve_listable (by rw [resolved, if_neg (Nat.not_le.mpr short)])
    (fun name member => ?_)
    (fun passed inside within => ?_) before other
  · exact (tree.names there name (List.mem_append_right root member)).1
  · exact (listable_iff tree reached directory form).mpr (reaches.passed passed inside within)

/-- A path that the walk finds leads to its own place, unless it is too long or there is a link at
its place. -/
theorem locate_file {names : List Name} (reaches : Reaches disk folder root names)
    (no_link : ∀ target, disk.node? (root ++ names) ≠ some (.link target)) {last : Disk.LastSegment}
    {l : Location} (located : disk.locate last (names.foldl Path.join folder.root) = .ok l) :
    l = root ++ names := by
  obtain ⟨node, there, -⟩ := reaches.file
  obtain ⟨above, name, rfl⟩ := (List.eq_nil_or_concat' names).resolve_left reaches.below
  have inside : above <+: above ++ [name] := List.prefix_append above [name]
  have apart : above ≠ above ++ [name] := by simp
  have proper := (tree.names there name (by simp)).1
  rw [← List.append_assoc] at there no_link
  have above_it := resolve_above tree reached directory form reaches inside apart
  rw [List.foldl_concat,
    Disk.locate_entry above_it (reaches.passed above inside apart).1 proper there
    (fun target link => no_link target (link ▸ there)) last] at located
  cases refused : ((above.foldl Path.join folder.root).join name).refusal? with
  | some e => simp [refused] at located
  | none =>
    rw [refused] at located
    exact (Except.ok.inj located).symm.trans (List.append_assoc ..)

theorem mem_files {p : Path} :
    p ∈ (folder.items disk).filterMap SourceItem.file? ↔
      ∃ names, p = names.foldl Path.join folder.root ∧ Reaches disk folder root names := by
  have placed := placed_root tree reached directory form
  obtain ⟨-, found, files, -, members⟩ := Walk.filesBelow_spec (tree.tidyBelow root) placed
  rw [files_items, files, List.mem_map]
  constructor
  · rintro ⟨names, member, rfl⟩
    exact ⟨names, rfl, (foundBelow_root tree reached directory form).mp ((members names).mp member)⟩
  · rintro ⟨names, rfl, reaches⟩
    exact ⟨names,
      (members names).mpr ((foundBelow_root tree reached directory form).mpr reaches), rfl⟩

theorem not_mem_files_of_long {names above : List Name} (segments : ∀ name ∈ names, IsSegment name)
    (before : above <+: names) (other : above ≠ names)
    (long : Disk.pathLimit ≤ (above.foldl Path.join folder.root).bytes.length) :
    names.foldl Path.join folder.root ∉ (folder.items disk).filterMap SourceItem.file? := by
  intro member
  obtain ⟨names', same, reaches⟩ := (mem_files tree reached directory form).mp member
  obtain ⟨filled, -, -⟩ := Disk.resolve_absolute tree reached directory form
  have apart := congrArg Path.segments same
  rw [segments_joined tree reached directory form reaches,
    Path.segments_joined filled segments] at apart
  obtain rfl := List.append_cancel_left apart
  exact absurd (reaches.passed above before other).2 (Nat.not_lt.mpr long)

theorem pairwise_files :
    ((folder.items disk).filterMap SourceItem.file?).Pairwise fun p q =>
    p.segments < q.segments := by
  have placed := placed_root tree reached directory form
  obtain ⟨-, found, files, ordered, members⟩ := Walk.filesBelow_spec (tree.tidyBelow root) placed
  rw [files_items, files, List.pairwise_map]
  refine ordered.imp_of_mem fun {a b} a_mem b_mem less => ?_
  have segments : ∀ names ∈ found, (names.foldl Path.join folder.root).segments
    = folder.root.segments ++ names :=
    fun names member => segments_joined tree reached directory form
      ((foundBelow_root tree reached directory form).mp ((members names).mp member))
  rw [segments a a_mem, segments b b_mem]
  exact List.append_left_lt less

end Directory

/-- A path that leads to no directory is no folder. A path that leads to a directory is one, and the
walk through it comes to its end: it gives the files that are reached from the absolute form of the
path, by one name at least, over directories whose paths are shorter than the longest one that can
be listed; these are regular files, and links that lead to a regular file. It gives nothing else and
nothing twice, as the files come in the strict order of their segments, which are compared as byte
strings. -/
theorem files_of_tree {disk : Disk} (tree : disk.Tree) (path : Path) :
    (disk.isDirectory path = false → ofPath disk path = .error (.rootNotFound path)) ∧
    (disk.isDirectory path = true → ∃ folder root, ofPath disk path = .ok folder ∧
      path.absolute? disk.workingDirectory = some folder.root ∧ disk.resolve path = .ok root ∧
      Walk.Ends disk folder.walk (folder.walk.visits disk) ∧
      let files := (folder.items disk).filterMap SourceItem.file?
      (∀ p, p ∈ files ↔ ∃ names, p = names.foldl Path.join folder.root ∧ names ≠ [] ∧
        (∀ above, above <+: names → above ≠ names → disk.node? (root ++ above) = some .directory ∧
          (above.foldl Path.join folder.root).bytes.length < Disk.pathLimit) ∧
        ∃ node, disk.node? (root ++ names) = some node ∧
          (node.isRegular = true ∨ (∃ target, node = .link target) ∧ disk.isFile p = true)) ∧
      files.Pairwise fun p q => p.segments < q.segments) := by
  constructor
  · intro other
    simp [ofPath, other]
  · intro is_directory
    obtain ⟨root, reached, directory⟩ := Disk.isDirectory_iff.mp is_directory
    obtain ⟨folder, found, form⟩ := exists_ofPath reached directory
    have placed := placed_root tree reached directory form
    refine ⟨folder, root, found, form, reached,
      (Walk.filesBelow_spec (tree.tidyBelow root) placed).1, fun p => ?_,
      pairwise_files tree reached directory form⟩
    rw [mem_files tree reached directory form]
    constructor
    · rintro ⟨names, rfl, reaches⟩
      exact ⟨names, rfl, reaches.below, reaches.passed, reaches.file⟩
    · rintro ⟨names, rfl, below, passed, file⟩
      exact ⟨names, rfl, below, passed, file⟩

def treeWithLinks : Disk :=
  let place (names : List String) : Location := names.map Text.Utf8.ofString
  ⟨[(place ["w"], .directory), (place ["w", "a"], .directory), (place ["w", "a",
    "x"], .file (.bytes [])),
    (place ["w", "a.txt"], .link (Text.Utf8.ofString "a/x")),
      (place ["w", "up"], .link (Text.Utf8.ofString "..")),
    (place ["w", "empty"], .directory)], place ["w"]⟩

/-- The directory is named by a relative path, and the file in it comes before the link, whose name
is longer than that of the directory of the file. -/
theorem files_of_tree_with_links :
    treeWithLinks.Tree ∧ treeWithLinks.isDirectory (.ofString ".") = true ∧
      ∃ folder, ofPath treeWithLinks (.ofString ".") = .ok folder ∧
        Walk.Ends treeWithLinks folder.walk (folder.walk.visits treeWithLinks) ∧
        let files := (folder.items treeWithLinks).filterMap SourceItem.file?
        .ofString "/w/a/x" ∈ files ∧ .ofString "/w/a.txt" ∈ files ∧
          files.Pairwise fun p q => p.segments < q.segments := by
  have tree : treeWithLinks.Tree := by decide +kernel
  have is_directory : treeWithLinks.isDirectory (.ofString ".") = true := by cbv
  obtain ⟨⟨start⟩, root, found, form, reached, ends, members, ordered⟩ :=
    (files_of_tree tree (.ofString ".")).2 is_directory
  obtain rfl : start = .ofString "/w" := by
    have absolute : Path.absolute? treeWithLinks.workingDirectory (.ofString ".") =
      some (.ofString "/w") := by
      decide +kernel
    exact Option.some.inj (form.symm.trans absolute)
  obtain rfl : root = [Text.Utf8.ofString "w"] := by
    have resolved : treeWithLinks.resolve (.ofString ".") = .ok [Text.Utf8.ofString "w"] := by cbv
    exact Except.ok.inj (reached.symm.trans resolved)
  let inner : List Name := [Text.Utf8.ofString "a", Text.Utf8.ofString "x"]
  let link : List Name := [Text.Utf8.ofString "a.txt"]
  have passed : ∀ names ∈ [inner, link], ∀ above ∈ names.inits, above ≠ names →
      treeWithLinks.node? (Text.Utf8.ofString "w" :: above) = some .directory ∧
        (above.foldl Path.join (.ofString "/w")).bytes.length < Disk.pathLimit := by decide +kernel
  refine ⟨tree, is_directory, _, found, ends, (members _).mpr ?_, (members _).mpr ?_, ordered⟩
  · refine ⟨inner, by decide +kernel, by decide, fun above before => ?_, .file (.bytes []),
      by decide +kernel, .inl rfl⟩
    exact passed inner (by simp) above ((List.mem_inits _ _).mpr before)
  · have leads : treeWithLinks.isFile (.ofString "/w/a.txt") = true := by cbv
    refine ⟨link, by decide +kernel, by decide, fun above before => ?_,
      .link (Text.Utf8.ofString "a/x"),
      by decide +kernel, .inr ⟨⟨_, rfl⟩, leads⟩⟩
    exact passed link (by simp) above ((List.mem_inits _ _).mpr before)

/-- Sixteen directories in one another, the last of which has a path of 4096 bytes: it cannot be
listed, and the file in it is not found, although nothing but directories is above it. -/
theorem file_below_long_path_not_found :
    let above (depth : Nat) : Location := List.replicate depth (List.replicate 255 97)
    let place : Location := above 16 ++ [[102]]
    let disk : Disk := ⟨((List.range 16).map fun depth => (above (depth + 1), .directory)) ++
      [(place, .file (.bytes []))], []⟩
    let top : Path := ⟨[slash]⟩
    disk.Tree ∧ disk.isDirectory top = true ∧ ofPath disk top = .ok ⟨top⟩ ∧
      (∀ depth, depth ≤ 16 → disk.node? (above depth) = some .directory) ∧
      disk.node? place = some (.file (.bytes [])) ∧
      place.foldl Path.join top ∉ (items ⟨top⟩ disk).filterMap SourceItem.file? := by
  intro above place disk top
  have tree : disk.Tree := by decide +kernel
  have reached : disk.resolve top = .ok [] := by cbv
  have form : top.absolute? disk.workingDirectory = some (Folder.mk top).root := by decide +kernel
  have directories : ∀ depth, depth ≤ 16 → disk.node? (above depth) = some .directory := by
    decide +kernel
  have is_directory : disk.isDirectory top = true := by cbv
  have found : ofPath disk top = .ok ⟨top⟩ := by
    rw [ofPath, if_pos is_directory, form]
    rfl
  refine ⟨tree, is_directory, found, directories, by decide +kernel, ?_⟩
  refine not_mem_files_of_long tree reached rfl form ?_
    (List.prefix_append (above 16) _) (by simp [place])
    (by decide +kernel)
  exact fun name inside =>
    (tree.proper (place, .file (.bytes [])) (by simp [disk]) name inside).toIsSegment

end TextArchive.Ingest.Folder
