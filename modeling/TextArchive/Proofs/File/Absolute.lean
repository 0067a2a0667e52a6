import Mathlib.Data.List.Induction
import TextArchive.Proofs.File.Walk

/-!
Absolute paths: the absolute form of a path that leads to a directory leads to the same directory,
unless it is too long for any path. Segments that stand for the directory itself can be left out,
and the way from the top directory to the working directory leads over directories alone.
-/

set_option autoImplicit false
set_option relaxedAutoImplicit false

namespace TextArchive.Text.Split

variable {α : Type} {isSeparator : α → Bool}

private theorem of_mem_pieces {xs piece : List α} (member : piece ∈ pieces isSeparator xs) :
    ∀ a ∈ piece, a ∈ xs ∧ isSeparator a = false := by
  induction xs generalizing piece with
  | nil => simp_all [pieces]
  | cons b xs ih =>
    simp only [pieces] at member
    by_cases separates : isSeparator b = true
    · rw [if_pos separates] at member
      rcases List.mem_cons.mp member with rfl | later
      · simp
      · exact fun a inside => (ih later a inside).imp_left (List.mem_cons_of_mem b)
    · rw [if_neg separates] at member
      have inside : ∀ q ∈ pieces isSeparator xs, ∀ a ∈ q, a ∈ b :: xs ∧ isSeparator a = false :=
        fun q later a here => (ih later a here).imp_left (List.mem_cons_of_mem b)
      have first : b ∈ b :: xs ∧ isSeparator b = false :=
        ⟨List.mem_cons_self, by simpa using separates⟩
      rcases cut : pieces isSeparator xs with _ | ⟨p, ps⟩
      · exact absurd cut (pieces_ne_nil _ xs)
      · rw [cut] at member inside
        rcases List.mem_cons.mp member with rfl | later
        · intro a here
          rcases List.mem_cons.mp here with rfl | rest
          · exact first
          · exact inside p List.mem_cons_self a rest
        · exact inside piece (List.mem_cons_of_mem p later)

end TextArchive.Text.Split

namespace TextArchive.File

namespace Path

theorem of_mem_segments {p : Path} {name : Name} (member : name ∈ p.segments) :
    IsSegment name ∧ ∀ a ∈ name, a ∈ p.bytes := by
  obtain ⟨piece, filled⟩ := List.mem_filter.mp member
  have cut := Text.Split.of_mem_pieces piece
  refine ⟨⟨by simpa using filled, fun inside => ?_⟩, fun a inside => (cut a inside).1⟩
  simpa using (cut slash inside).2

private theorem segments_append_slash (p : Path) :
    (Path.mk (p.bytes ++ [slash])).segments = p.segments := by
  have cut : Text.Split.words (· = slash) (p.bytes ++ [slash]) =
      Text.Split.words (· = slash) p.bytes ++ Text.Split.words (· = slash) [] :=
    Text.Split.words_append_separator (by decide) _ _
  rw [segments, cut]
  simp [segments, Text.Split.words, Text.Split.pieces]

section Joined

variable {start : Path} (filled : start.bytes ≠ []) {names : List Name}
include filled

private theorem join_ne_nil (name : Name) : (start.join name).bytes ≠ [] := by
  unfold join
  split
  · simp_all
  · split <;> simp [filled]

theorem joined_ne_nil (names : List Name) : (names.foldl join start).bytes ≠ [] := by
  induction names generalizing start with
  | nil => exact filled
  | cons name names ih => exact ih (join_ne_nil filled name)

theorem isAbsolute_joined (names : List Name) :
    (names.foldl join start).isAbsolute = start.isAbsolute := by
  induction names generalizing start with
  | nil => rfl
  | cons name names ih => rw [List.foldl_cons, ih (join_ne_nil filled name), isAbsolute_join filled]

theorem segments_joined (segments : ∀ name ∈ names, IsSegment name) :
    (names.foldl join start).segments = start.segments ++ names := by
  induction names generalizing start with
  | nil => simp
  | cons name names ih =>
    have first := segments name List.mem_cons_self
    rw [List.foldl_cons,
      ih (join_ne_nil filled name) fun other later =>
      segments other (List.mem_cons_of_mem name later),
      segments_join filled first]
    simp

end Joined

private theorem mem_join {p : Path} {name : Name} {a : UInt8} (member : a ∈ (p.join name).bytes) :
    a ∈ p.bytes ∨ a = slash ∨ a ∈ name := by
  unfold join at member
  split at member
  · exact .inr (.inr member)
  · split at member
    · exact (List.mem_append.mp member).imp_right .inr
    · exact (List.mem_append.mp member).imp_right List.mem_cons.mp

theorem zero_not_mem_joined {start : Path} {names : List Name} (clean : (0 : UInt8) ∉ start.bytes)
    (whole : ∀ name ∈ names, (0 : UInt8) ∉ name) :
    (0 : UInt8) ∉ (names.foldl join start).bytes := by
  induction names generalizing start with
  | nil => exact clean
  | cons name names ih =>
    refine ih (fun member => ?_) fun other later => whole other (List.mem_cons_of_mem name later)
    rcases mem_join member with before | between | inside
    · exact clean before
    · exact absurd between (by decide)
    · exact whole name List.mem_cons_self inside

theorem refusal?_of_clean {p : Path} (filled : p.bytes ≠ []) (clean : (0 : UInt8) ∉ p.bytes) :
    p.refusal? = if Disk.pathLimit ≤ p.bytes.length then some .nameTooLong else none := by
  have no_zero : p.bytes.contains 0 = false := by simpa using clean
  have not_empty : p.bytes.isEmpty = false := by simpa using filled
  simp only [refusal?, not_empty, no_zero, Bool.false_eq_true, if_false]

end Path

namespace Disk

variable {disk : Disk}

/-- A tree of directories: whatever stands at a place stands in a directory, under a name without
zero bytes, and the working directory is one of its directories. -/
structure Tree (disk : Disk) : Prop extends disk.Tidy where
  rooted : ∀ entry ∈ disk.entries, disk.node? entry.1.dropLast = some .directory
  whole : ∀ entry ∈ disk.entries, ∀ name ∈ entry.1, (0 : UInt8) ∉ name
  workingDirectory : disk.node? disk.workingDirectory = some .directory

instance (disk : Disk) : Decidable disk.Tree :=
  decidable_of_iff
    (disk.Tidy ∧ (∀ entry ∈ disk.entries, disk.node? entry.1.dropLast = some .directory) ∧
      (∀ entry ∈ disk.entries, ∀ name ∈ entry.1, (0 : UInt8) ∉ name) ∧
      disk.node? disk.workingDirectory = some .directory)
    ⟨fun ⟨tidy, rooted, whole, working⟩ => ⟨tidy, rooted, whole, working⟩,
      fun h => ⟨h.toTidy, h.rooted, h.whole, h.workingDirectory⟩⟩

theorem mem_of_node? {l : Location} {node : Node} (there : disk.node? l = some node)
    (below : l ≠ []) :
    (l, node) ∈ disk.entries := by
  have not_top : l.isEmpty = false := by simpa using below
  simp only [node?, not_top, Bool.false_eq_true, if_false] at there
  obtain ⟨entry, found, rfl⟩ := Option.map_eq_some_iff.mp there
  have place : entry.1 = l := by simpa using List.find?_some found
  rw [← place]
  exact List.mem_of_find?_eq_some found

section Tree

variable (tree : disk.Tree) {l : Location} {node : Node} (there : disk.node? l = some node)
include tree there

theorem Tree.names : ∀ name ∈ l, ProperName name ∧ (0 : UInt8) ∉ name := by
  intro name member
  have listed := mem_of_node? there (List.ne_nil_of_mem member)
  exact ⟨tree.proper _ listed name member, tree.whole _ listed name member⟩

theorem Tree.directory_above {higher : Location} (above : higher <+: l) (other : higher ≠ l) :
    disk.node? higher = some .directory := by
  induction l using List.reverseRecOn generalizing node with
  | nil => exact absurd (List.prefix_nil.mp above) other
  | append_singleton parent name ih =>
    have inside : disk.node? parent = some .directory := by
      simpa using tree.rooted _ (mem_of_node? there (by simp))
    rcases List.prefix_concat_iff.mp above with same | within
    · exact absurd same other
    · by_cases here : higher = parent
      · rw [here]
        exact inside
      · exact ih inside within here

end Tree

theorem descend_directories (last : LastSegment) (links : Nat) {place : Location}
    {names : List Name} (proper : ∀ name ∈ names, ProperName name)
    (directories : ∀ passed, passed <+: names →
    disk.node? (place ++ passed) = some .directory) (rest : List Name) :
    disk.descend last links place (names ++ rest) =
    disk.descend last links (place ++ names) rest := by
  induction names generalizing place with
  | nil => simp
  | cons name names ih =>
    have first := proper name List.mem_cons_self
    have start : disk.node? place = some .directory := by simpa using directories [] List.nil_prefix
    have next : disk.node? (place ++ [name]) = some .directory := directories [name] (by simp)
    have turned : disk.turn place name = .on (place ++ [name]) := by
      have fits : ¬ longestName < name.length := Nat.not_lt.mpr first.short
      simp [turn, start, first.not_here, first.not_above, fits, next]
    rw [List.cons_append, descend_cons]
    simp only [turned]
    have further : disk.descend last links (place ++ [name]) (names ++ rest) =
        disk.descend last links (place ++ [name] ++ names) rest :=
      ih (fun other later => proper other (List.mem_cons_of_mem name later)) fun passed within => by
        simpa using directories (name :: passed) (List.cons_prefix_cons.mpr ⟨rfl, within⟩)
    rw [further]
    simp

private theorem descend_plain {links : Nat} {place l : Location} (front rest : List Name)
    (reached : disk.descend ⟨true, false⟩ links place (front ++ rest) = .ok l) :
    disk.descend ⟨true, false⟩ links place (front ++ rest.filter (· ≠ here)) = .ok l := by
  generalize all : front ++ rest = segments at reached
  induction links, place, segments using descend_induction disk generalizing front rest with
  | nil links place =>
    obtain ⟨rfl, rfl⟩ := List.append_eq_nil_iff.mp all
    exact reached
  | cons links place name others on link =>
    rw [descend_cons] at reached
    have walked : ∀ front' rest', front' ++ rest' = others →
        disk.descend ⟨true, false⟩ links place
          (name :: (front' ++ rest'.filter (· ≠ here))) = .ok l := by
      intro front' rest' split
      rw [descend_cons]
      cases turned : disk.turn place name with
      | refused e => simp [turned] at reached
      | missing next => simp [turned] at reached
      | link next target =>
        cases links with
        | zero => simp [turned] at reached
        | succ fewer =>
          simp only [turned, Bool.not_true, Bool.and_false, Bool.false_eq_true,
            if_false] at reached ⊢
          have further := link fewer next target rfl turned (steps target ++ front') rest'
            (by rw [List.append_assoc, split]) reached
          rwa [List.append_assoc] at further
      | on next =>
        simp only [turned] at reached ⊢
        exact on next turned front' rest' split reached
    cases front with
    | cons first front =>
      obtain ⟨rfl, split⟩ := List.cons.inj all
      exact walked front rest split
    | nil =>
      rw [List.nil_append] at all ⊢
      subst all
      by_cases stays : name = here
      · have kept : (name :: others).filter (· ≠ here) = others.filter (· ≠ here) := by simp [stays]
        rw [kept]
        have turned : disk.turn place name = .on place := by
          by_cases directory : disk.node? place = some .directory
          · simp [turn, directory, stays]
          · simp [turn, directory] at reached
        simp only [turned] at reached
        exact on place turned [] others rfl reached
      · have kept : (name :: others).filter (· ≠ here) = name :: others.filter (· ≠ here) := by
          simp [stays]
        rw [kept]
        exact walked [] others rfl

private theorem descend_here {links : Nat} {place l : Location} {segments : List Name}
    (reached : disk.descend ⟨true, false⟩ links place segments = .ok l)
    (directory : disk.node? l = some .directory) :
    disk.descend ⟨true, false⟩ links place (segments ++ [here]) = .ok l := by
  obtain ⟨left, same⟩ := descend_append reached
  rw [same, descend_cons]
  simp [turn, directory]

end Disk

section Absolute

variable {disk : Disk} {p absolute : Path} {l : Location}

private theorem Path.absoluteStart_spec (tree : disk.Tree) (p : Path) :
    let start := p.absoluteStart disk.workingDirectory
    start.bytes ≠ [] ∧ (0 : UInt8) ∉ start.bytes ∧ start.isAbsolute = true ∧
      start.segments = if p.isAbsolute then [] else disk.workingDirectory := by
  have names := tree.names tree.workingDirectory
  have top : (Path.mk [slash]).bytes ≠ [] := by simp
  have relative : p.isAbsolute = false → p.absoluteStart disk.workingDirectory = .ofLocation
    disk.workingDirectory := by
    intro other
    unfold Path.absoluteStart
    split
    · simp_all [Path.isAbsolute, slash]
    · simp_all [Path.isAbsolute, slash]
    · simp_all [Path.isAbsolute, slash]
    · rfl
  cases absolute : p.isAbsolute with
  | false =>
    rw [relative absolute, Path.ofLocation]
    refine ⟨joined_ne_nil top _, ?_, ?_, ?_⟩
    · exact zero_not_mem_joined (by decide) fun name member => (names name member).2
    · rw [isAbsolute_joined top]
      rfl
    · rw [segments_joined top fun name member => (names name member).1.toIsSegment]
      rfl
  | true =>
    unfold Path.absoluteStart
    split
    · exact ⟨by simp, by decide, rfl, rfl⟩
    · exact ⟨by simp, by decide, rfl, rfl⟩
    · exact ⟨by simp, by decide, rfl, rfl⟩
    · rename_i other
      have first : p.bytes.head? = some slash := by simpa [Path.isAbsolute] using absolute
      obtain ⟨rest, bytes⟩ := List.head?_eq_some_iff.mp first
      exact absurd bytes (other rest)

private theorem Path.absolute?_spec (tree : disk.Tree) (clean : (0 : UInt8) ∉ p.bytes)
    (form : p.absolute? disk.workingDirectory = some absolute) :
    absolute.bytes ≠ [] ∧ (0 : UInt8) ∉ absolute.bytes ∧ absolute.isAbsolute = true ∧
      absolute.segments =
      (if p.isAbsolute then [] else disk.workingDirectory) ++ p.plainSegments := by
  obtain ⟨filled, start_clean, rooted, before⟩ := absoluteStart_spec tree p
  have within : ∀ name ∈ p.plainSegments, IsSegment name ∧ ∀ a ∈ name, a ∈ p.bytes :=
    fun name member => of_mem_segments (List.mem_filter.mp member).1
  have joined_filled := joined_ne_nil filled p.plainSegments
  have joined_clean := zero_not_mem_joined start_clean fun name member inside =>
    clean ((within name member).2 0 inside)
  have joined_rooted := (isAbsolute_joined filled p.plainSegments).trans rooted
  have joined_segments := segments_joined filled fun name member => (within name member).1
  rw [before] at joined_segments
  unfold Path.absolute? at form
  split at form
  · cases form
  simp only [Option.some.injEq] at form
  generalize p.plainSegments.foldl join (p.absoluteStart disk.workingDirectory) = joined at *
  split at form
  · subst form
    refine ⟨by simp, ?_, ?_, ?_⟩
    · intro member
      rcases List.mem_append.mp member with inside | last
      · exact joined_clean inside
      · exact absurd (List.mem_singleton.mp last) (by decide)
    · simpa [isAbsolute, List.head?_append_of_ne_nil _ joined_filled] using joined_rooted
    · rw [segments_append_slash, joined_segments]
  · subst form
    exact ⟨joined_filled, joined_clean, joined_rooted, joined_segments⟩

theorem Disk.descend_absolute (tree : disk.Tree) (reached : disk.resolve p = .ok l)
    (directory : disk.node? l = some .directory)
    (form : p.absolute? disk.workingDirectory = some absolute) :
    absolute.bytes ≠ [] ∧ (0 : UInt8) ∉ absolute.bytes ∧
      disk.descend ⟨true, false⟩ linkLimit (disk.startOf absolute)
      (steps absolute.bytes) = .ok l := by
  obtain ⟨accepted, reached⟩ := descend_of_resolve reached
  have clean : (0 : UInt8) ∉ p.bytes := by
    intro zero
    simp only [Path.refusal?] at accepted
    split at accepted
    · cases accepted
    · simp [zero] at accepted
  obtain ⟨filled, absolute_clean, rooted, segments⟩ := Path.absolute?_spec tree clean form
  refine ⟨filled, absolute_clean, ?_⟩
  have plain := descend_plain [] (steps p.bytes) reached
  have left_out : (steps p.bytes).filter (· ≠ here) = p.plainSegments := by
    unfold steps Path.plainSegments
    split <;> simp
  rw [List.nil_append, left_out] at plain
  have down : disk.descend ⟨true, false⟩ linkLimit [] absolute.segments = .ok l := by
    rw [segments]
    split
    · rename_i absolute_path
      simpa [startOf, absolute_path] using plain
    · rename_i relative_path
      have proper := fun name member => (tree.names tree.workingDirectory name member).1
      rw [descend_directories _ _ proper, List.nil_append]
      · simpa [startOf, relative_path] using plain
      · intro passed above
        by_cases all : passed = disk.workingDirectory
        · rw [all]
          exact tree.workingDirectory
        · exact tree.directory_above tree.workingDirectory above all
  rw [startOf, if_pos rooted]
  unfold steps
  split
  · exact descend_here down directory
  · rw [List.append_nil]
    exact down

/-- The absolute form of a path that leads to a directory leads to the same directory, unless it is
too long. -/
theorem Disk.resolve_absolute (tree : disk.Tree) (reached : disk.resolve p = .ok l)
    (directory : disk.node? l = some .directory)
    (form : p.absolute? disk.workingDirectory = some absolute) :
    absolute.bytes ≠ [] ∧ (0 : UInt8) ∉ absolute.bytes ∧
      disk.resolve absolute =
        if Disk.pathLimit ≤ absolute.bytes.length then .error .nameTooLong else .ok l := by
  obtain ⟨filled, clean, down⟩ := descend_absolute tree reached directory form
  refine ⟨filled, clean, ?_⟩
  rw [resolve, locate_eq, Path.refusal?_of_clean filled clean, ← down]
  split <;> rfl

end Absolute

end TextArchive.File
