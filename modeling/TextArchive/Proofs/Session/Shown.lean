import TextArchive.Proofs.File.Agreement
import TextArchive.Proofs.Session.Operation
import Mathlib.Data.List.Basic

/-!
What a change of one database shows in the tree of files: nothing but its own file and the files
beside it can look different.
-/

set_option autoImplicit false
set_option relaxedAutoImplicit false

namespace TextArchive.Store.Storage

open TextArchive.File (Content Disk Location Node Path)
open TextArchive.File.Disk (Agree Bare)

def placesOf (s : Storage) (key : Nat) : List Location :=
  (s.disk.entries.filter (·.2.key? = some key)).map (·.1)

/-- The places of the files beside a place. -/
def placesBeside (place : Location) : List Location :=
  sideSuffixes.map fun suffix =>
    place.dropLast ++ [place.getLast?.getD [] ++ Text.Utf8.ofString suffix]

/-- The places of the files of a database: its own and those beside it. -/
def filesOf (s : Storage) (key : Nat) : List Location :=
  (s.placesOf key).flatMap fun place => place :: placesBeside place

theorem mem_placesOf {s : Storage} {key : Nat} {entry : Location × Node}
    (member : entry ∈ s.disk.entries)
    (stored : entry.2.key? = some key) : entry.1 ∈ s.placesOf key :=
  List.mem_map_of_mem (List.mem_filter.mpr ⟨member, by simpa using stored⟩)

/-- Storages that agree but for the database of a key, which is kept at some places. -/
structure Beside (key : Nat) (own : List Location) (a b : Storage) : Prop where
  disks : Agree own a.disk b.disk
  kept : ∀ entry ∈ a.disk.entries, entry.2.key? = some key → entry.1 ∈ own
  databases : ∀ other ∈ a.disk.storedKeys, other ≠ key → b.database other = a.database other
  connected : ∀ other ∈ a.disk.storedKeys, other ≠ key →
    b.connected.contains other = a.connected.contains other

section Shown

variable (s : Storage)

private theorem shownNode_of_key? {node : Node} (other : node.key? = none) :
    s.shownNode node = node := by
  cases node with
  | file content => cases content with
    | bytes content => rfl
    | stored key => simp [File.Node.key?] at other
  | _ => rfl

private theorem isRegular_shownNode (node : Node) :
    (s.shownNode node).isRegular = node.isRegular := by
  cases node with
  | file content => cases content <;> rfl
  | _ => rfl

private theorem sideFiles_of_key? {entry : Location × Node} (other : entry.2.key? = none) :
    s.sideFiles entry = [] := by
  obtain ⟨place, node⟩ := entry
  cases node with
  | file content => cases content with
    | bytes content => rfl
    | stored key => simp [File.Node.key?] at other
  | _ => rfl

theorem of_mem_sideFiles {entry side : Location × Node} (member : side ∈ s.sideFiles entry) :
    side.1 ∈ placesBeside entry.1 ∧ side.2 = .file (.bytes []) := by
  unfold sideFiles at member
  split at member
  · split at member
    · obtain ⟨suffix, here, rfl⟩ := List.mem_map.mp member
      exact ⟨List.mem_map.mpr ⟨suffix, here, rfl⟩, rfl⟩
    · simp at member
  · simp at member

theorem find?_shown (place : Location) :
    s.shown.entries.find? (·.1 = place) =
      ((s.disk.entries.find? (·.1 = place)).map fun entry => (entry.1, s.shownNode entry.2)).or
        (((s.disk.entries.flatMap s.sideFiles).filter fun side => hasRoom s.disk side.1).find? (·.1 = place)) := by
  simp only [shown, List.find?_append, List.find?_map]
  rfl

theorem node?_shown {place : Location} {node : Node} (there : s.disk.node? place = some node) :
    s.shown.node? place = some (s.shownNode node) := by
  unfold Disk.node? at there ⊢
  split
  · rename_i top
    have directory : node = .directory := by simpa [top] using there.symm
    rw [directory]
    rfl
  · rename_i below
    simp only [below] at there
    obtain ⟨entry, found, rfl⟩ := Option.map_eq_some_iff.mp there
    rw [find?_shown, found]
    rfl

private theorem bare_shown {place : Location} (bare : s.disk.Bare place) : s.shown.Bare place := by
  intro node there
  cases found : s.disk.node? place with
  | some other =>
    rw [s.node?_shown found] at there
    cases there
    rw [isRegular_shownNode]
    exact bare other found
  | none =>
    unfold Disk.node? at found there
    split at found
    · cases found
    · rename_i below
      rw [if_neg below] at there
      rw [find?_shown, Option.map_eq_none_iff.mp found] at there
      obtain ⟨side, member, rfl⟩ := Option.map_eq_some_iff.mp there
      obtain ⟨entry, -, beside⟩ := List.mem_flatMap.mp
        (List.mem_filter.mp (List.mem_of_find?_eq_some member)).1
      rw [(s.of_mem_sideFiles beside).2]
      rfl

private theorem filter_shown {own : List Location} {keep : Location → Bool}
    (elsewhere : ∀ place ∈ own, keep place = false ∧
    ∀ side ∈ placesBeside place, keep side = false) :
    s.shown.entries.filter (keep ·.1) =
      ((s.disk.entries.filter (·.1 ∉ own)).filter (keep ·.1)).map
      (fun entry => (entry.1, s.shownNode entry.2)) ++
        (s.disk.entries.filter (·.1 ∉ own)).flatMap fun entry =>
          (s.sideFiles entry).filter fun side => keep side.1 && hasRoom s.disk side.1 := by
  simp only [shown, List.filter_append, List.filter_map, List.filter_flatMap, List.filter_filter]
  congr 1
  · refine congrArg (List.map _) (List.filter_congr fun entry _ => ?_)
    by_cases here : entry.1 ∈ own
    · simp [here, (elsewhere entry.1 here).1]
    · simp [here]
  · induction s.disk.entries with
    | nil => rfl
    | cons entry entries ih =>
      rw [List.flatMap_cons, ih]
      by_cases here : entry.1 ∈ own
      · have nothing : ((s.sideFiles entry).filter fun side => keep side.1 && hasRoom s.disk
          side.1) = [] := by
          refine List.filter_eq_nil_iff.mpr fun side member => ?_
          simp [(elsewhere entry.1 here).2 side.1 (s.of_mem_sideFiles member).1]
        simp [nothing, here]
      · simp [here]

end Shown

section Beside

variable {a b : Storage} {key : Nat} {own : List Location} (beside : Beside key own a b)
include beside

private theorem Beside.entry {entry : Location × Node} (member : entry ∈ a.disk.entries)
    (elsewhere : entry.1 ∉ own) :
    b.shownNode entry.2 = a.shownNode entry.2 ∧ b.sideFiles entry = a.sideFiles entry := by
  cases stored : entry.2.key? with
  | none =>
    rw [shownNode_of_key? _ stored, shownNode_of_key? _ stored, sideFiles_of_key? _ stored,
      sideFiles_of_key? _ stored]
    exact ⟨rfl, rfl⟩
  | some other =>
    have apart : other ≠ key := fun same => elsewhere (beside.kept entry member (same ▸ stored))
    have known : other ∈ a.disk.storedKeys := List.mem_filterMap.mpr ⟨entry, member, stored⟩
    obtain ⟨place, node⟩ := entry
    have file : node = .file (.stored other) := by
      cases node with
      | file content => cases content with
        | bytes content => simp [File.Node.key?] at stored
        | stored key => simpa [File.Node.key?] using stored
      | _ => simp [File.Node.key?] at stored
    subst file
    simp only [shownNode, sideFiles, beside.databases other known apart,
      beside.connected other known apart, and_self]

/-- Storages that agree but for one database show trees that agree but for its files. -/
theorem Beside.agree : Agree (own.flatMap fun place => place :: placesBeside place) a.shown b.shown
    where
  workingDirectory := beside.disks.workingDirectory
  entries := by
    intro keep none
    have elsewhere : ∀ place ∈ own, keep place = false ∧
      ∀ side ∈ placesBeside place, keep side = false := by
      intro place member
      exact ⟨none place (List.mem_flatMap.mpr ⟨place, member, List.mem_cons_self⟩), fun side here =>
        none side (List.mem_flatMap.mpr ⟨place, member, List.mem_cons_of_mem place here⟩)⟩
    have common : b.disk.entries.filter (·.1 ∉ own) = a.disk.entries.filter (·.1 ∉ own) :=
      beside.disks.entries (fun l => l ∉ own) fun place member => by simpa using member
    have looks : ∀ entry ∈ a.disk.entries.filter (·.1 ∉ own),
        b.shownNode entry.2 = a.shownNode entry.2 ∧ b.sideFiles entry = a.sideFiles entry := by
      intro entry member
      obtain ⟨listed, outside⟩ := List.mem_filter.mp member
      exact beside.entry listed (by simpa using outside)
    rw [b.filter_shown elsewhere, a.filter_shown elsewhere, common]
    congr 1
    · refine List.map_congr_left fun entry member => ?_
      rw [(looks entry (List.mem_filter.mp member).1).1]
    · refine List.flatMap_congr fun entry member => ?_
      rw [(looks entry member).2]
      refine List.filter_congr fun side _ => ?_
      by_cases kept : keep side.1 = true
      · have away : side.1 ∉ own := fun inside => by simp [(elsewhere side.1 inside).1] at kept
        have same := (beside.disks.node? side.1).resolve_right fun inside => away inside.1
        simp only [hasRoom, same]
      · simp [kept]
  nodes := by
    intro place _
    have both : a.disk.Bare place → b.disk.Bare place → b.shown.node? place = a.shown.node? place ∨
        a.shown.Bare place ∧ b.shown.Bare place := fun bare bare' =>
          .inr ⟨a.bare_shown bare, b.bare_shown bare'⟩
    rcases beside.disks.node? place with same | ⟨-, bare, bare'⟩
    · by_cases bare : a.disk.Bare place
      · exact both bare fun node there => bare node (same.symm.trans there)
      · simp only [Disk.Bare, not_forall] at bare
        obtain ⟨node, there, other⟩ := bare
        have plain : node.key? = none := by
          cases node with
          | file content => exact absurd rfl other
          | _ => rfl
        left
        rw [a.node?_shown there, b.node?_shown (same.trans there), shownNode_of_key? _ plain,
          shownNode_of_key? _ plain]
    · exact both bare bare'

end Beside

end TextArchive.Store.Storage
