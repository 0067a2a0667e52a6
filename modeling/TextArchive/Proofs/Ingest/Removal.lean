import TextArchive.Proofs.File.Interruption
import TextArchive.Proofs.Ingest.Scanning

/-!
Folders of which something is removed while they are walked through. Whatever goes, and whenever it
goes, no other file is missed, none comes twice, and none comes that would not have come.
-/

set_option autoImplicit false
set_option relaxedAutoImplicit false

namespace TextArchive.Ingest.Folder

open TextArchive.File

section Directory

variable {disk after : Disk} {folder : Folder} {path : Path} {root : Location} (tree : disk.Tree)
  (reached : disk.resolve path = .ok root) (directory : disk.node? root = some .directory)
  (form : path.absolute? disk.workingDirectory = some folder.root) (within : Disk.Part disk after)
include tree reached directory form within

private theorem accessible_of_reaches {place : Location} {names : List Name}
    (reached' : after.resolve folder.root = .ok place)
    (reaches : Reaches after folder place names) :
    Walk.Accessible after folder.root root names := by
  obtain ⟨filled, clean, resolved⟩ := Disk.resolve_absolute tree reached directory form
  obtain rfl : place = root := by
    have same := within.resolve reached'
    rw [resolved] at same
    split at same
    · cases same
    · exact (Except.ok.inj same).symm
  obtain ⟨node, there, counts⟩ := reaches.file
  have proper : ∀ name ∈ names, ProperName name := fun name member =>
    (tree.names (within.nodes there) name (List.mem_append_right place member)).1
  have listable : ∀ above, above <+: names → above ≠ names →
    Walk.Listable after folder.root place above := by
    intro above before other
    obtain ⟨there, short⟩ := reaches.passed above before other
    have accepted := ((listable_iff tree reached directory form).mpr ⟨within.nodes there, short⟩).2
    exact ⟨there, accepted⟩
  exact ⟨fun above before other => ⟨Walk.resolve_listable reached' proper listable before other,
    (listable above before other).1⟩, reaches.file⟩

end Directory

/-- Something is removed after a walk through a folder has found a number of files. What it has
found by then are the first files of the folder as it was. The walk goes on to its end; all files
that it finds would have been found without the removal, in the same order, and none comes twice.
Every file that is reached in what is left, from the root of the folder over directories whose paths
are shorter than the longest one that can be listed, is among them. -/
theorem files_after_removal {disk after : Disk} (tree : disk.Tree) {path removed : Path}
    {folder : Folder} (found : ofPath disk path = .ok folder)
    (gone : disk.remove removed = .ok after) (n : Nat) :
    let undisturbed := (folder.items disk).filterMap SourceItem.file?
    let first := folder.walk.advance disk n
    let later := first.2.visits after
    let files := (folder.itemsOf (first.1 ++ later)).filterMap SourceItem.file?
    (folder.itemsOf first.1).filterMap SourceItem.file? = undisturbed.take n ∧
      Walk.Ends after first.2 later ∧ files.Sublist undisturbed ∧ files.Nodup ∧
      ∀ root names, after.resolve folder.root = .ok root → names ≠ [] →
        (∀ above, above <+: names → above ≠ names → after.node? (root ++ above) = some .directory ∧
          (above.foldl Path.join folder.root).bytes.length < Disk.pathLimit) →
        (∃ node, after.node? (root ++ names) = some node ∧ (node.isRegular = true ∨
          (∃ target, node = .link target) ∧
            after.isFile (names.foldl Path.join folder.root) = true)) →
        names.foldl Path.join folder.root ∈ files := by
  intro undisturbed first later files
  obtain ⟨root, reached, directory, form⟩ := of_ofPath found
  have within := Disk.part_of_remove gone
  obtain ⟨firstFiles, ends, fewer, all⟩ := Walk.found_over_part within (tree.tidyBelow root)
    (placed_root tree reached directory form) n
  have same : undisturbed = Walk.filesBelow disk folder.root := files_items disk
  have once : undisturbed.Nodup :=
    (pairwise_files tree reached directory form).imp fun less equal => by
    rw [equal] at less
    exact List.lt_irrefl _ less
  have sublist : files.Sublist undisturbed := by
    rw [same, show files = _ from files_itemsOf _]
    exact fewer
  refine ⟨by rw [files_itemsOf, same]; exact firstFiles, ends, sublist, once.sublist sublist, ?_⟩
  intro place names reached' below passed file
  rw [show files = _ from files_itemsOf _]
  exact all names (accessible_of_reaches tree reached directory form within reached' ⟨below,
    passed, file⟩)

/-- The empty directory goes when the first file has been found, and the link to this file, which
comes next, is found. -/
theorem files_after_removal_of_empty_directory :
    let after := treeWithLinks.drop [Text.Utf8.ofString "w", Text.Utf8.ofString "empty"]
    let folder : Folder := ⟨.ofString "/w"⟩
    let first := folder.walk.advance treeWithLinks 1
    let later := first.2.visits after
    let files := (folder.itemsOf (first.1 ++ later)).filterMap SourceItem.file?
    treeWithLinks.Tree ∧ ofPath treeWithLinks (.ofString ".") = .ok folder ∧
      treeWithLinks.remove (.ofString "empty") = .ok after ∧
      Walk.Ends after first.2 later ∧ files.Nodup ∧ .ofString "/w/a/x" ∈ files ∧
        .ofString "/w/a.txt" ∈ files := by
  intro after folder first later files
  have tree : treeWithLinks.Tree := by decide +kernel
  have found : ofPath treeWithLinks (.ofString ".") = .ok folder := by cbv
  have gone : treeWithLinks.remove (.ofString "empty") = .ok after := by cbv
  obtain ⟨-, ends, -, once, all⟩ := files_after_removal tree found gone 1
  have reached : after.resolve (.ofString "/w") = .ok [Text.Utf8.ofString "w"] := by cbv
  let inner : List Name := [Text.Utf8.ofString "a", Text.Utf8.ofString "x"]
  let link : List Name := [Text.Utf8.ofString "a.txt"]
  have passed : ∀ names ∈ [inner, link], ∀ above ∈ names.inits, above ≠ names →
      after.node? (Text.Utf8.ofString "w" :: above) = some .directory ∧
        (above.foldl Path.join (.ofString "/w")).bytes.length < Disk.pathLimit := by decide +kernel
  have leads : after.isFile (.ofString "/w/a.txt") = true := by cbv
  refine ⟨tree, found, gone, ends, once, ?_, ?_⟩
  · refine all _ inner reached (by decide) (fun above before => ?_) ⟨.file (.bytes []),
      by decide +kernel, .inl rfl⟩
    exact passed inner (by simp) above ((List.mem_inits _ _).mpr before)
  · refine all _ link reached (by decide) (fun above before => ?_)
      ⟨.link (Text.Utf8.ofString "a/x"), by decide +kernel, .inr ⟨⟨_, rfl⟩, leads⟩⟩
    exact passed link (by simp) above ((List.mem_inits _ _).mpr before)

/-- Sixteen directories in one another, as many as make up a path of 4096 bytes, and a file beside
the first of them that is removed when it has been found: the file in the last directory is still
there, but it is not found. -/
theorem file_below_long_path_not_found_after_removal :
    let above (depth : Nat) : Location := List.replicate depth (List.replicate 255 97)
    let place : Location := above 16 ++ [[102]]
    let disk : Disk :=
      ⟨([[48]], .file (.bytes [])) :: ((List.range 16).map fun depth => (above (depth + 1),
        .directory)) ++
      [(place, .file (.bytes []))], []⟩
    let top : Path := ⟨[slash]⟩
    let after := disk.drop [[48]]
    let first := (Folder.mk top).walk.advance disk 1
    let later := first.2.visits after
    disk.Tree ∧ ofPath disk top = .ok ⟨top⟩ ∧ disk.remove ⟨[slash, 48]⟩ = .ok after ∧
      after.resolve top = .ok [] ∧
      (∀ depth, depth ≤ 16 → after.node? (above depth) = some .directory) ∧
      after.node? place = some (.file (.bytes [])) ∧
      place.foldl Path.join top ∉
        (itemsOf ⟨top⟩ (first.1 ++ later)).filterMap SourceItem.file? := by
  intro above place disk top after first later
  have tree : disk.Tree := by decide +kernel
  have reached : disk.resolve top = .ok [] := by cbv
  have reached' : after.resolve top = .ok [] := by cbv
  have form : top.absolute? disk.workingDirectory = some (Folder.mk top).root := by decide +kernel
  have directories : ∀ depth, depth ≤ 16 → after.node? (above depth) = some .directory := by
    decide +kernel
  have is_directory : disk.isDirectory top = true := by cbv
  have found : ofPath disk top = .ok ⟨top⟩ := by
    rw [ofPath, if_pos is_directory, form]
    rfl
  have located : disk.locate ⟨false, false⟩ ⟨[slash, 48]⟩ = .ok [[48]] := by cbv
  have gone : disk.remove ⟨[slash, 48]⟩ = .ok after := by
    rw [Disk.remove, located]
    rfl
  refine ⟨tree, found, gone, reached', directories, by decide +kernel, fun member => ?_⟩
  have within := Disk.part_of_remove gone
  have fewer := (Walk.found_over_part within (tree.tidyBelow [])
    (placed_root tree reached rfl form) 1).2.2.1
  rw [files_itemsOf] at member
  have segments : ∀ name ∈ place, IsSegment name := fun name inside =>
    (tree.proper (place, .file (.bytes [])) (by simp [disk]) name inside).toIsSegment
  refine not_mem_files_of_long tree reached rfl form segments
    (List.prefix_append (above 16) _) (by simp [place])
    (by decide +kernel) ?_
  rw [files_items]
  exact fewer.subset member

end TextArchive.Ingest.Folder
