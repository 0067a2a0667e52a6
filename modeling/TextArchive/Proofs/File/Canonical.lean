import TextArchive.Proofs.File.Absolute
import TextArchive.Proofs.Text.Decoding

/-!
Canonical forms: the absolute form free of links that a path has if it leads to something, and if
the system can be asked about each entry on the way. It passes over directories alone, ends at no
link, and stays as it is when it is made canonical or absolute again.
-/

set_option autoImplicit false
set_option relaxedAutoImplicit false

namespace TextArchive

private theorem Text.Utf8.decodeReplacing_encode (cs : List Char) :
    decodeReplacing (encode cs) = cs := by
  induction cs with
  | nil => rw [encode, List.flatMap_nil, decodeReplacing, pieces, List.map_nil]
  | cons c cs ih =>
    obtain ⟨a, tail, encoding, -, taken⟩ := first_encode c
    rw [encode_cons, encoding, List.cons_append, decodeReplacing, pieces, taken]
    exact congrArg (c :: ·) ih

namespace File

theorem Path.display_ofString (s : String) : (Path.ofString s).display = s := by
  rw [display, ofString, Text.Utf8.ofString, Text.Utf8.decodeReplacing_encode, String.ofList_toList]

theorem Path.bytes_of_display {p q : Path} (text : ∃ cs, p.bytes = Text.Utf8.encode cs)
    (text' : ∃ cs, q.bytes = Text.Utf8.encode cs) (same : p.display = q.display) :
    p.bytes = q.bytes := by
  obtain ⟨cs, bytes⟩ := text
  obtain ⟨cs', bytes'⟩ := text'
  rw [display, display, bytes, bytes', Text.Utf8.decodeReplacing_encode,
    Text.Utf8.decodeReplacing_encode, String.ofList_inj] at same
  rw [bytes, bytes', same]

theorem Path.exists_encode_joined {start : Path} {names : Location}
    (text : ∃ cs, start.bytes = Text.Utf8.encode cs)
    (texts : ∀ name ∈ names, ∃ cs, name = Text.Utf8.encode cs) :
    ∃ cs, (names.foldl join start).bytes = Text.Utf8.encode cs := by
  induction names generalizing start with
  | nil => exact text
  | cons name names ih =>
    refine ih ?_ fun other member => texts other (List.mem_cons_of_mem _ member)
    obtain ⟨cs, bytes⟩ := text
    obtain ⟨last, rfl⟩ := texts name List.mem_cons_self
    unfold join
    split
    · exact ⟨last, rfl⟩
    split
    · exact ⟨cs ++ last, by simp [bytes, Text.Utf8.encode]⟩
    · exact ⟨cs ++ '/' :: last, by simp [bytes, Text.Utf8.encode]; rfl⟩

namespace Disk

variable {disk : Disk}

section Tree

variable (tree : disk.Tree)
include tree

private theorem Tree.node?_of_turn {place next : Location} {name : Name}
    (turned : disk.turn place name = .on next) :
    ∃ node, disk.node? next = some node ∧ ∀ target, node ≠ .link target := by
  unfold turn at turned
  split at turned
  · cases turned
  rename_i directory
  have directory : disk.node? place = some .directory := by simpa using directory
  split at turned
  · cases turned
    exact ⟨_, directory, nofun⟩
  split at turned
  · cases turned
    refine ⟨.directory, ?_, nofun⟩
    by_cases top : place.dropLast = place
    · rw [top]
      exact directory
    · exact tree.directory_above directory (List.dropLast_prefix place) top
  split at turned
  · cases turned
  split at turned
  · cases turned
  · cases turned
  · rename_i node other there
    cases turned
    exact ⟨node, there, fun target link => other target link⟩

private theorem Tree.node?_of_descend {links : Nat} {place l : Location} {segments : List Name}
    (start : ∃ node, disk.node? place = some node ∧ ∀ target, node ≠ .link target)
    (reached : disk.descend ⟨true, false⟩ links place segments = .ok l) :
    ∃ node, disk.node? l = some node ∧ ∀ target, node ≠ .link target := by
  induction links, place, segments using descend_induction disk with
  | nil links place =>
    have here : place = l := by simpa using reached
    exact here ▸ start
  | cons links place name rest on link =>
    rw [descend_cons] at reached
    cases turned : disk.turn place name with
    | refused e => simp [turned] at reached
    | missing next => simp [turned] at reached
    | link next target =>
      cases links with
      | zero => simp [turned] at reached
      | succ fewer =>
        simp only [turned, Bool.not_true, Bool.and_false, Bool.false_eq_true, if_false] at reached
        refine link fewer next target rfl turned ?_ reached
        unfold linkBase
        split
        · exact ⟨.directory, rfl, nofun⟩
        · exact start
    | on next =>
      simp only [turned] at reached
      exact on next turned (tree.node?_of_turn turned) reached

private theorem Tree.node?_startOf (p : Path) : disk.node? (disk.startOf p) = some .directory := by
  unfold startOf
  split
  · rfl
  · exact tree.workingDirectory

theorem Tree.node?_of_walk {p : Path} {l : Location} (reached : disk.walk p = .ok l) :
    ∃ node, disk.node? l = some node ∧ ∀ target, node ≠ .link target := by
  unfold walk at reached
  split at reached
  · cases reached
  split at reached
  · cases reached
  exact tree.node?_of_descend ⟨_, tree.node?_startOf p, nofun⟩ reached

end Tree

/-- Whether the system can be asked about each entry on the way of a path by its absolute path, a
slash included where a directory has to stand. -/
def Nameable (disk : Disk) (p : Path) : Prop :=
  ∀ q ∈ disk.asked linkLimit (disk.startOf p) (steps p.bytes), q.bytes.length < pathLimit

instance (disk : Disk) (p : Path) : Decidable (disk.Nameable p) :=
  inferInstanceAs (Decidable (∀ q ∈ _, _))

theorem walk_of_resolve {p : Path} {l : Location} (reached : disk.resolve p = .ok l) :
    disk.walk p = .ok l := by
  obtain ⟨accepted, walked⟩ := descend_of_resolve reached
  unfold Path.refusal? at accepted
  unfold walk
  split at accepted
  · cases accepted
  split at accepted
  · cases accepted
  simp_all

theorem canonical?_eq_some {p canonical : Path} :
    disk.canonical? p = some canonical ↔ disk.Nameable p ∧ ∃ l, disk.walk p = .ok l ∧
    .ofLocation l = canonical := by
  unfold canonical? Nameable
  simp only [List.all_eq_true, decide_eq_true_eq]
  by_cases short : ∀ q ∈ disk.asked linkLimit (disk.startOf p)
    (steps p.bytes), q.bytes.length < pathLimit
  · rw [if_pos short]
    cases disk.walk p with
    | error e => simp [Except.toOption]
    | ok l =>
      have all : (∀ q ∈ disk.asked linkLimit (disk.startOf p) (steps p.bytes),
        q.bytes.length < pathLimit) = True :=
        eq_true short
      simp only [all]
      simp [Except.toOption]
  · simp [short]

end Disk

section Place

variable {l : Location} (segments : ∀ name ∈ l, IsSegment name)
include segments

theorem Path.segments_ofLocation : (Path.ofLocation l).segments = l := by
  rw [ofLocation, segments_joined (by simp) segments]
  rfl

omit segments in
theorem Path.isAbsolute_ofLocation : (Path.ofLocation l).isAbsolute = true := by
  rw [ofLocation, isAbsolute_joined (by simp)]
  rfl

omit segments in
private theorem Path.prefix_joined (start : Path) : start.bytes <+: (l.foldl join start).bytes := by
  induction l generalizing start with
  | nil => exact List.prefix_rfl
  | cons name l ih =>
    refine List.IsPrefix.trans ?_ (ih (start.join name))
    unfold join
    split
    · simp_all
    · split <;> exact List.prefix_append _ _

private theorem Path.absolute?_ofLocation (plain : ∀ name ∈ l, name ≠ here)
    (workingDirectory : Location) :
    (Path.ofLocation l).absolute? workingDirectory = some (.ofLocation l) := by
  have filled : (Path.ofLocation l).bytes ≠ [] := joined_ne_nil (by simp) l
  have start : (Path.ofLocation l).absoluteStart workingDirectory = ⟨[slash]⟩ := by
    cases l with
    | nil => rfl
    | cons name rest =>
      have first := segments name List.mem_cons_self
      obtain ⟨b, name', rfl⟩ := List.exists_cons_of_ne_nil first.filled
      have other : b ≠ slash := fun same => first.whole (by simp [same])
      obtain ⟨more, bytes⟩ := prefix_joined (l := rest) ((Path.mk [slash]).join (b :: name'))
      have bytes : (Path.ofLocation ((b :: name') :: rest)).bytes = 47 :: b :: (name' ++ more) := by
        exact bytes.symm
      unfold absoluteStart
      rw [bytes]
      split
      · simp_all [slash]
      · simp_all [slash]
      · rfl
      · simp_all
  have kept : (Path.ofLocation l).plainSegments = l := by
    rw [plainSegments, segments_ofLocation segments]
    exact List.filter_eq_self.mpr fun name member => by simpa using plain name member
  have not_empty : (Path.ofLocation l).bytes.isEmpty = false := by simpa using filled
  have same : l.foldl join ⟨[slash]⟩ = .ofLocation l := rfl
  simp only [absolute?, not_empty, start, kept, same, Bool.false_eq_true, if_false,
    Bool.and_not_self]

end Place

namespace Disk

section Tree

variable {disk : Disk} (tree : disk.Tree) {l : Location} {node : Node}
    (there : disk.node? l = some node)
  (no_link : ∀ target, node ≠ .link target)
include tree there no_link

private theorem Tree.walk_ofLocation : disk.walk (.ofLocation l) = .ok l := by
  have names := tree.names there
  have segments : ∀ name ∈ l, IsSegment name := fun name member => (names name member).1.toIsSegment
  have filled : (Path.ofLocation l).bytes.isEmpty = false := by
    simpa [Path.ofLocation] using Path.joined_ne_nil (by simp) l
  have clean : (Path.ofLocation l).bytes.contains 0 = false := by
    simpa [Path.ofLocation] using Path.zero_not_mem_joined
      (by decide) fun name member => (names name member).2
  have start : disk.startOf (.ofLocation l) = [] := by
    rw [startOf, if_pos Path.isAbsolute_ofLocation]
  simp only [walk, filled, clean, start, Bool.false_eq_true, if_false]
  rcases List.eq_nil_or_concat l with rfl | ⟨before, name, rfl⟩
  · have only : steps (Path.ofLocation []).bytes = [here] := rfl
    rw [only, descend_cons]
    simp [turn, node?]
  · rw [List.concat_eq_append] at *
    have last := (names name (by simp)).1
    have ends : (Path.ofLocation (before ++ [name])).endsInSlash = false := by
      rw [Path.ofLocation, List.foldl_append]
      exact Path.endsInSlash_join last.toIsSegment
    have only : steps (Path.ofLocation (before ++ [name])).bytes = before ++ [name] := by
      rw [steps, ends, Path.segments_ofLocation segments]
      simp
    have directories : ∀ passed, passed <+: before →
      disk.node? ([] ++ passed) = some .directory := by
      intro passed within
      refine tree.directory_above there (within.trans (List.prefix_append _ _)) fun same => ?_
      have shorter := within.length_le
      have longer := congrArg List.length same
      simp at longer
      omega
    rw [only, descend_directories _ _ (fun other member => (names other (by simp [member])).1)
      directories, List.nil_append, descend_cons]
    have directory : disk.node? before = some .directory := directories before List.prefix_rfl
    rw [turn_entry directory last there no_link]
    exact descend_nil _ _ _

/-- The canonical form of the path of a place is the path itself, and so is its absolute form. -/
theorem Tree.canonical?_ofLocation :
    ((disk.canonical? (.ofLocation l)).or ((Path.ofLocation l).absolute? disk.workingDirectory)) =
      some (.ofLocation l) := by
  have names := tree.names there
  have absolute := Path.absolute?_ofLocation (fun name member => (names name member).1.toIsSegment)
    (fun name member => (names name member).1.not_here) disk.workingDirectory
  cases canonical : disk.canonical? (.ofLocation l) with
  | none => rw [Option.none_or, absolute]
  | some c =>
    obtain ⟨-, l', walked, rfl⟩ := canonical?_eq_some.mp canonical
    rw [tree.walk_ofLocation there no_link] at walked
    cases walked
    rfl

end Tree

end Disk

end File

end TextArchive
