import Mathlib.Data.List.Sort
import TextArchive.Proofs.File.Scan

/-!
Trees of which a part is gone. What a path leads to in what is left of a tree it leads to in the
whole tree, and the directories that are left list no more than they did, in the same order.
-/

set_option autoImplicit false
set_option relaxedAutoImplicit false

namespace TextArchive.File

namespace Disk

/-- What is left of a tree: nothing stands in it that does not stand in the whole tree. -/
structure Part (whole part : Disk) : Prop where
  workingDirectory : part.workingDirectory = whole.workingDirectory
  entries : part.entries.Sublist whole.entries
  nodes : ∀ {l : Location} {node : Node}, part.node? l = some node → whole.node? l = some node

theorem Part.refl (disk : Disk) : Part disk disk :=
  ⟨rfl, .refl _, id⟩

private theorem node?_drop_of_some {disk : Disk} {gone l : Location} {node : Node}
    (there : (disk.drop gone).node? l = some node) :
    disk.node? l = some node := by
  unfold node? at there ⊢
  split
  · rename_i top
    rwa [if_pos top] at there
  · rename_i below
    rw [if_neg below] at there
    obtain ⟨entry, found, rfl⟩ := Option.map_eq_some_iff.mp there
    have kept : gone.isPrefixOf entry.1 = false := by
      simpa [drop] using (List.mem_filter.mp (List.mem_of_find?_eq_some found)).2
    have place : entry.1 = l := by simpa using List.find?_some found
    have same : disk.entries.find? (·.1 = l) = (disk.drop gone).entries.find? (·.1 = l) := by
      rw [drop, List.find?_filter]
      refine congrArg (disk.entries.find? ·) (funext fun other => ?_)
      by_cases here : other.1 = l
      · simp [here, ← place, kept]
      · simp [here]
    rw [same, found]
    rfl

private theorem part_drop (disk : Disk) (gone : Location) : Part disk (disk.drop gone) :=
  ⟨rfl, List.filter_sublist, node?_drop_of_some⟩

theorem part_of_remove {disk after : Disk} {p : Path} (removed : disk.remove p = .ok after) :
    Part disk after := by
  unfold remove at removed
  cases located : disk.locate ⟨false, false⟩ p with
  | error e => simp [located, Except.map] at removed
  | ok l =>
    rw [located] at removed
    exact Except.ok.inj removed ▸ part_drop disk l

namespace Part

variable {whole part : Disk} (within : Part whole part)
include within

private theorem turn (place : Location) (name : Name) :
    part.turn place name = whole.turn place name ∨ (∃ e, part.turn place name = .refused e) ∨
      ∃ next, part.turn place name = .missing next := by
  by_cases directory : part.node? place = some .directory
  swap
  · exact .inr (.inl ⟨.notADirectory, if_pos directory⟩)
  simp only [Disk.turn, directory, within.nodes directory, ne_eq, not_true, if_false]
  cases there : part.node? (place ++ [name]) with
  | some node => exact .inl (by rw [within.nodes there])
  | none =>
    by_cases stays : name = here
    · simp [stays]
    by_cases rises : name = above
    · simp [rises]
    by_cases long : longestName < name.length
    · simp [stays, rises, long]
    · simp [stays, rises, long]

private theorem descend {links : Nat} {place l : Location} {segments : List Name}
    (reached : part.descend ⟨true, false⟩ links place segments = .ok l) :
    whole.descend ⟨true, false⟩ links place segments = .ok l := by
  induction links, place, segments using descend_induction part with
  | nil links place => simpa using reached
  | cons links place name rest on link =>
    rw [descend_cons] at reached ⊢
    rcases within.turn place name with same | ⟨e, refused⟩ | ⟨next, missing⟩
    · rw [← same]
      cases turned : part.turn place name with
      | refused e => simp [turned] at reached
      | missing next => simp [turned] at reached
      | on next =>
        simp only [turned] at reached ⊢
        exact on next turned reached
      | link next target =>
        cases links with
        | zero => simp [turned] at reached
        | succ fewer =>
          simp only [turned, Bool.not_true, Bool.and_false, Bool.false_eq_true,
            if_false] at reached ⊢
          exact link fewer next target rfl turned reached
    · simp [refused] at reached
    · simp [missing] at reached

theorem resolve {p : Path} {l : Location} (reached : part.resolve p = .ok l) :
    whole.resolve p = .ok l := by
  rw [Disk.resolve, locate_eq] at reached ⊢
  cases refused : p.refusal? with
  | some e => simp [refused] at reached
  | none =>
    rw [refused, within.workingDirectory] at reached
    exact within.descend reached

private theorem lookUp {p : Path} {node : Node} (found : part.lookUp p = .ok node) :
    whole.lookUp p = .ok node := by
  unfold Disk.lookUp at found ⊢
  cases reached : part.resolve p with
  | error e => simp [reached] at found
  | ok l =>
    cases there : part.node? l with
    | none => simp [reached, there] at found
    | some other =>
      simp only [reached, there, Option.elim_some] at found
      simp only [within.resolve reached, within.nodes there, Option.elim_some]
      exact found

theorem isFile {p : Path} (file : part.isFile p = true) : whole.isFile p = true := by
  unfold Disk.isFile at file ⊢
  cases found : part.lookUp p with
  | error e => simp [found] at file
  | ok node => simpa only [found, within.lookUp found] using file

theorem children (l : Location) : (part.children l).Sublist (whole.children l) :=
  within.entries.filterMap _

theorem sorted_children {l : Location} (once : ((whole.children l).map (·.1)).Nodup) :
    ((part.children l).mergeSort fun a b => bytesLe a.1 b.1).Sublist
      ((whole.children l).mergeSort fun a b => bytesLe a.1 b.1) := by
  have once' := once.sublist ((within.children l).map (·.1))
  have fewer : (part.children l).Subperm (whole.children l) := (within.children l).subperm
  have : Std.Antisymm fun a b : Name × Node => a.1 < b.1 :=
    ⟨fun a b less more => absurd more (List.lt_asymm less)⟩
  refine List.sublist_of_subperm_of_pairwise ?_ (pairwise_sorted once') (pairwise_sorted once)
  exact (List.mergeSort_perm _ _).subperm.trans (fewer.trans (List.mergeSort_perm _ _).symm.subperm)

end Part

end Disk

end TextArchive.File
