import TextArchive.File.Walk
import TextArchive.Proofs.File.Agreement
import Mathlib.Data.List.Nodup
import Mathlib.Data.List.Perm.Subperm

/-!
Walks: a walk through a tidy tree visits every entry at most once, so it ends within the visits that
it may make; and walks through trees that agree but for places outside find the same files.
-/

set_option autoImplicit false
set_option relaxedAutoImplicit false

namespace TextArchive.File

namespace Disk

/-- A tree in which every place is listed once, under names that entries can have. -/
structure Tidy (disk : Disk) : Prop where
  once : (disk.entries.map (·.1)).Nodup
  proper : ∀ entry ∈ disk.entries, ∀ name ∈ entry.1, ProperName name

instance (disk : Disk) : Decidable disk.Tidy :=
  decidable_of_iff
    ((disk.entries.map (·.1)).Nodup ∧ ∀ entry ∈ disk.entries, ∀ name ∈ entry.1, ProperName name)
    ⟨fun h => ⟨h.1, h.2⟩, fun h => ⟨h.once, h.proper⟩⟩

def below (disk : Disk) (root : Location) : List (Location × Node) :=
  disk.entries.filter fun entry => root.isPrefixOf entry.1

/-- A tree that is tidy at and below a place. -/
structure TidyBelow (disk : Disk) (root : Location) : Prop where
  once : ((disk.below root).map (·.1)).Nodup
  proper : ∀ entry ∈ disk.below root, ∀ name ∈ entry.1, ProperName name

variable {disk : Disk} {root l : Location}

private theorem mem_below {entry : Location × Node} :
    entry ∈ disk.below root ↔ entry ∈ disk.entries ∧ root <+: entry.1 := by
  simp [below]

theorem Tidy.tidyBelow (tidy : disk.Tidy) (root : Location) : disk.TidyBelow root where
  once := tidy.once.sublist (List.filter_sublist.map _)
  proper entry member := tidy.proper entry (mem_below.mp member).1

def childOf (l : Location) (entry : Location × Node) : Option (Name × Node) :=
  match entry.1.getLast? with
  | some name => if entry.1.dropLast = l then some (name, entry.2) else none
  | none => none

private theorem childOf_eq_some {entry : Location × Node} {child : Name × Node} :
    childOf l entry = some child ↔ entry = (l ++ [child.1], child.2) := by
  obtain ⟨place, node⟩ := entry
  rcases List.eq_nil_or_concat place with rfl | ⟨above, last, rfl⟩
  · simp [childOf]
  · by_cases here : above = l
    · simp [childOf, here, Prod.ext_iff]
    · simp [childOf, here]

theorem mem_children {child : Name × Node} :
    child ∈ disk.children l ↔ (l ++ [child.1], child.2) ∈ disk.entries := by
  show child ∈ disk.entries.filterMap (childOf l) ↔ _
  simp [List.mem_filterMap, childOf_eq_some]

private theorem children_below (inside : root <+: l) :
    disk.children l = (disk.below root).filterMap (childOf l) := by
  show disk.entries.filterMap (childOf l) = _
  rw [below, List.filterMap_filter]
  refine List.filterMap_congr fun entry _ => ?_
  cases found : childOf l entry with
  | none => simp
  | some child =>
    rw [childOf_eq_some.mp found]
    have within : root <+: l ++ [child.1] := inside.trans (List.prefix_append l _)
    simp [within]

private theorem map_filterMap_childOf (entries : List (Location × Node)) :
    ((entries.filterMap (childOf l)).map fun child => l ++ [child.1]).Sublist
    (entries.map (·.1)) := by
  induction entries with
  | nil => exact List.Sublist.slnil
  | cons entry entries ih =>
    cases found : childOf l entry with
    | none => simpa [found] using ih.cons entry.1
    | some child =>
      rw [List.filterMap_cons_some found, List.map_cons, List.map_cons, childOf_eq_some.mp found]
      exact ih.cons_cons _

namespace TidyBelow

variable (tidy : disk.TidyBelow root) (inside : root <+: l)
include tidy inside

theorem nodup_children : ((disk.children l).map (·.1)).Nodup := by
  have places := tidy.once.sublist (map_filterMap_childOf (l := l) _)
  rw [← children_below inside] at places
  have names : ((disk.children l).map (·.1)).map (fun name => l ++ [name]) =
      (disk.children l).map fun child => l ++ [child.1] := by
    simp
  exact List.Nodup.of_map _ (names ▸ places)

private theorem node?_child {child : Name × Node} (member : child ∈ disk.children l) :
    disk.node? (l ++ [child.1]) = some child.2 := by
  have listed := mem_children.mp member
  have within : root <+: l ++ [child.1] := inside.trans (List.prefix_append l _)
  cases found : disk.entries.find? (·.1 = l ++ [child.1]) with
  | none => simpa using List.find?_eq_none.mp found _ listed
  | some entry =>
    have place : entry.1 = l ++ [child.1] := by simpa using List.find?_some found
    have same : entry = (l ++ [child.1], child.2) :=
      List.inj_on_of_nodup_map tidy.once
        (mem_below.mpr ⟨List.mem_of_find?_eq_some found, place ▸ within⟩)
          (mem_below.mpr ⟨listed, within⟩) place
    simp [node?, found, same]

private theorem properName_child {child : Name × Node} (member : child ∈ disk.children l) :
    ProperName child.1 :=
  tidy.proper _ (mem_below.mpr ⟨mem_children.mp member,
    inside.trans (List.prefix_append l _)⟩) _ (by simp)

end TidyBelow

namespace Agree

variable {places : List Location} {d d' : Disk} (agree : Agree places d d')
  (outside : ∀ place ∈ places, ¬ root <+: place)
include agree outside

private theorem below : d'.below root = d.below root :=
  agree.entries root.isPrefixOf fun place member => by
    simpa only [Bool.eq_false_iff, ne_eq, List.isPrefixOf_iff_prefix] using outside place member

private theorem tidyBelow (tidy : d.TidyBelow root) : d'.TidyBelow root := by
  have same := agree.below outside
  exact ⟨same ▸ tidy.once, same ▸ tidy.proper⟩

private theorem node?_below (inside : root <+: l) : d'.node? l = d.node? l := by
  rcases agree.node? l with same | ⟨member, -⟩
  · exact same
  · exact absurd inside (outside l member)

private theorem children (inside : root <+: l) : d'.children l = d.children l := by
  rw [children_below inside, children_below inside, agree.below outside]

end Agree

end Disk

namespace Walk

variable {disk : Disk} {start : Path} {root : Location}

def listed (disk : Disk) (directory : Path) (l : Location) : List Pending :=
  ((disk.children l).mergeSort fun a b => bytesLe a.1 b.1).map fun child =>
    ⟨directory.join child.1, .ofNode child.2⟩

theorem enter_directory {directory : Path} {l : Location} (reached : disk.resolve directory = .ok l)
    (there : disk.node? l = some .directory) :
    enter disk directory = (.nothing, listed disk directory l) := by
  simp [enter, listing, reached, there, listed]

theorem enter_error {directory : Path} {e : FileError}
    (failed : disk.resolve directory = .error e) :
    enter disk directory = (.failed directory e, []) := by
  simp [enter, listing, failed]

/-- An entry that is met below the start of a walk: it has been reached over directories, so that
the segments of its path lead to its place unless it is a link. -/
structure Placed (disk : Disk) (start : Path) (root : Location) (names : List Name)
    (entry : Pending) : Prop where
  path : entry.path = names.foldl Path.join start
  node : ∃ node, disk.node? (root ++ names) = some node ∧
    (entry.kind = .ofNode node ∨ entry.kind = .start ∧ node = .directory)
  walked : entry.kind ≠ .link →
    disk.descend ⟨true, false⟩ Disk.linkLimit (disk.startOf entry.path)
      (Disk.steps entry.path.bytes) = .ok (root ++ names)

theorem resolve_refused {p : Path} {e : FileError} (refused : p.refusal? = some e) :
    disk.resolve p = .error e := by
  rw [Disk.resolve, Disk.locate_eq, refused]
  rfl

theorem Placed.reached {names : List Name} {entry : Pending}
    (placed : Placed disk start root names entry) (no_link : entry.kind ≠ .link) :
    disk.resolve entry.path = .ok (root ++ names) ∨ ∃ e, entry.path.refusal? = some e := by
  cases refused : entry.path.refusal? with
  | some e => exact .inr ⟨e, rfl⟩
  | none =>
    left
    rw [Disk.resolve, Disk.locate_eq, refused]
    exact placed.walked no_link

section Visit

variable {names : List Name} {entry : Pending} (placed : Placed disk start root names entry)
include placed

theorem Placed.visit_directory (directory : disk.node? (root ++ names) = some .directory) :
    (disk.resolve entry.path = .ok (root ++ names) ∧
      visit disk entry = (.nothing, listed disk entry.path (root ++ names))) ∨
    ∃ e, entry.path.refusal? = some e ∧ visit disk entry = (.failed entry.path e, []) := by
  obtain ⟨node, there, kind⟩ := placed.node
  have same : node = .directory := by simpa [directory] using there.symm
  have no_link : entry.kind ≠ .link := by
    rcases kind with kind | ⟨kind, -⟩ <;> simp [kind, same, EntryKind.ofNode]
  rcases placed.reached no_link with reached | ⟨e, refused⟩
  · refine .inl ⟨reached, ?_⟩
    have entered := enter_directory reached directory
    rcases kind with kind | ⟨kind, -⟩
    · simp [visit, kind, same, EntryKind.ofNode, entered]
    · simp [visit, kind, Disk.lookUp, reached, directory, entered]
  · refine .inr ⟨e, refused, ?_⟩
    have failed : disk.resolve entry.path = .error e := resolve_refused refused
    rcases kind with kind | ⟨kind, -⟩
    · simp [visit, kind, same, EntryKind.ofNode, enter_error failed]
    · simp [visit, kind, Disk.lookUp, failed]

private theorem Placed.visit_other (other : disk.node? (root ++ names) ≠ some .directory) :
    (visit disk entry).2 = [] := by
  obtain ⟨node, there, kind⟩ := placed.node
  rcases kind with kind | ⟨-, directory⟩
  · cases node with
    | directory => exact absurd there other
    | _ => simp [visit, kind, EntryKind.ofNode]
  · exact absurd (directory ▸ there) other

theorem Placed.of_mem_visit {next : Pending} (member : next ∈ (visit disk entry).2) :
    disk.resolve entry.path = .ok (root ++ names) ∧ disk.node? (root ++ names) = some .directory ∧
      ∃ child ∈ disk.children (root ++ names), next =
      ⟨entry.path.join child.1, .ofNode child.2⟩ := by
  by_cases directory : disk.node? (root ++ names) = some .directory
  · rcases placed.visit_directory directory with ⟨reached, visited⟩ | ⟨e, -, visited⟩
    · rw [visited] at member
      obtain ⟨child, here, rfl⟩ := List.mem_map.mp member
      exact ⟨reached, directory, child, List.mem_mergeSort.mp here, rfl⟩
    · simp [visited] at member
  · simp [placed.visit_other directory] at member

theorem Placed.child (tidy : disk.TidyBelow root)
    (reached : disk.resolve entry.path = .ok (root ++ names))
    (directory : disk.node? (root ++ names) = some .directory) {child : Name × Node}
    (member : child ∈ disk.children (root ++ names)) :
    Placed disk start root (names ++ [child.1]) ⟨entry.path.join child.1, .ofNode child.2⟩ := by
  have inside : root <+: root ++ names := List.prefix_append root names
  have there : disk.node? (root ++ names ++ [child.1]) = some child.2 :=
    tidy.node?_child inside member
  refine ⟨?_, ⟨child.2, ?_, .inl rfl⟩, fun no_link => ?_⟩
  · simp [placed.path]
  · rw [← List.append_assoc]
    exact there
  · have other : ∀ target, child.2 ≠ .link target := by
      intro target link
      exact no_link (by rw [link]; rfl)
    rw [← List.append_assoc]
    exact Disk.descend_entry reached directory
      (tidy.properName_child inside member) there other ⟨true, false⟩

end Visit

/-- A walk on its way: the entries that it has visited and those that are pending are all different,
and all but the start have been listed in a directory that has been visited. -/
structure Explored (disk : Disk) (start : Path) (root : Location) (seen ahead : List (List Name))
    (walk : Walk) :
    Prop where
  placed : List.Forall₂ (Placed disk start root) ahead walk.pending
  once : (seen ++ ahead).Nodup
  met : ∀ names ∈ seen ++ ahead, names = [] ∨
    names.dropLast ∈ seen ∧ root ++ names ∈ disk.entries.map (·.1)

private theorem Explored.length_le {seen ahead : List (List Name)} {walk : Walk}
    (explored : Explored disk start root seen ahead walk) :
    seen.length + ahead.length ≤ disk.entries.length + 1 := by
  have distinct : ((seen ++ ahead).map (root ++ ·)).Nodup :=
    explored.once.map fun _ _ same => List.append_cancel_left same
  have within : (seen ++ ahead).map (root ++ ·) ⊆ root :: disk.entries.map (·.1) := by
    intro place member
    obtain ⟨names, here, rfl⟩ := List.mem_map.mp member
    rcases explored.met names here with rfl | ⟨-, listed⟩
    · simp
    · exact List.mem_cons_of_mem root listed
  simpa using (distinct.subperm within).length_le

section Explored

variable {seen ahead : List (List Name)} {names : List Name} {entry : Pending} {rest : List Pending}
  (explored : Explored disk start root seen (names :: ahead) ⟨entry :: rest⟩)
include explored

theorem Explored.leave : Explored disk start root (seen ++ [names]) ahead ⟨rest⟩ := by
  obtain ⟨-, others⟩ := List.forall₂_cons.mp explored.placed
  have split : seen ++ names :: ahead = (seen ++ [names]) ++ ahead := by simp
  refine ⟨others, split ▸ explored.once, fun other member => ?_⟩
  exact (explored.met other (split ▸ member)).imp_right fun h => ⟨List.mem_append_left _ h.1, h.2⟩

theorem Explored.enter (tidy : disk.TidyBelow root)
    (reached : disk.resolve entry.path = .ok (root ++ names))
    (directory : disk.node? (root ++ names) = some .directory) {children : List (Name × Node)}
    (distinct : (children.map (·.1)).Nodup)
    (listed : ∀ child ∈ children, child ∈ disk.children (root ++ names)) :
    Explored disk start root (seen ++ [names])
    ((children.map fun child => names ++ [child.1]) ++ ahead)
      ⟨(children.map fun child => ⟨entry.path.join child.1, .ofNode child.2⟩) ++ rest⟩ := by
  obtain ⟨placed, -⟩ := List.forall₂_cons.mp explored.placed
  have left := explored.leave
  refine ⟨?_, ?_, ?_⟩
  · refine List.rel_append ?_ left.placed
    simp only [List.forall₂_map_left_iff, List.forall₂_map_right_iff, List.forall₂_same]
    exact fun child member => placed.child tidy reached directory (listed child member)
  · have fresh : ∀ other ∈ (seen ++ [names]) ++ ahead, ∀ child : Name × Node,
      names ++ [child.1] ≠ other := by
      rintro _ member child rfl
      rw [List.append_assoc, List.singleton_append] at member
      rcases explored.met _ member with empty | ⟨visited, -⟩
      · simp at empty
      · rw [List.dropLast_concat] at visited
        have apart := (List.nodup_append.mp explored.once).2.2 names visited names
          List.mem_cons_self
        exact apart rfl
    have mapped := distinct.map (f := fun name => names ++ [name]) fun _ _ h => by simpa using h
    rw [List.map_map] at mapped
    rw [(List.perm_append_comm_assoc _ _ _).nodup_iff, List.nodup_append]
    refine ⟨mapped, left.once, ?_⟩
    rintro _ here other there
    obtain ⟨child, -, rfl⟩ := List.mem_map.mp here
    exact fresh other there child
  · intro other member
    rcases List.mem_append.mp member with before | member
    · exact left.met other (List.mem_append_left _ before)
    rcases List.mem_append.mp member with new | after
    · obtain ⟨child, here, rfl⟩ := List.mem_map.mp new
      refine .inr ⟨by simp, ?_⟩
      rw [← List.append_assoc]
      exact List.mem_map.mpr ⟨_, Disk.mem_children.mp (listed child here), rfl⟩
    · exact left.met other (List.mem_append_right _ after)

theorem Explored.visit (tidy : disk.TidyBelow root) :
    ∃ next, Explored disk start root (seen ++ [names])
    (next ++ ahead) ⟨(Walk.visit disk entry).2 ++ rest⟩ := by
  obtain ⟨placed, -⟩ := List.forall₂_cons.mp explored.placed
  by_cases directory : disk.node? (root ++ names) = some .directory
  swap
  · exact ⟨[], by simpa [placed.visit_other directory] using explored.leave⟩
  rcases placed.visit_directory directory with ⟨reached, visited⟩ | ⟨e, -, visited⟩
  swap
  · exact ⟨[], by simpa [visited] using explored.leave⟩
  rw [visited]
  have same := List.mergeSort_perm (disk.children (root ++ names)) fun a b => bytesLe a.1 b.1
  have distinct := (same.map (·.1)).nodup_iff.mpr
    (tidy.nodup_children (List.prefix_append root names))
  exact ⟨_, explored.enter tidy reached directory distinct fun child => same.mem_iff.mp⟩

end Explored

theorem visitsWithin_nil (n : Nat) : visitsWithin disk n ⟨[]⟩ = [] := by
  cases n <;> rfl

private theorem Explored.visitsWithin_eq {seen ahead : List (List Name)} {walk : Walk}
    (tidy : disk.TidyBelow root) (explored : Explored disk start root seen ahead walk) {n m : Nat}
    (enough : disk.entries.length + 1 ≤ seen.length + n)
    (enough' : disk.entries.length + 1 ≤ seen.length + m) :
    Walk.visitsWithin disk n walk = Walk.visitsWithin disk m walk := by
  obtain ⟨pending⟩ := walk
  induction n generalizing m seen ahead pending with
  | zero =>
    have bound := explored.length_le
    have none_ahead : ahead = [] := List.length_eq_zero_iff.mp (by omega)
    have none_pending : pending = [] := by simpa [none_ahead] using explored.placed
    rw [none_pending, visitsWithin_nil, visitsWithin_nil]
  | succ n ih =>
    cases pending with
    | nil => rw [visitsWithin_nil, visitsWithin_nil]
    | cons entry rest =>
      obtain ⟨names, ahead, -, -, rfl⟩ := List.forall₂_cons_right_iff.mp explored.placed
      have bound := explored.length_le
      rw [List.length_cons] at bound
      obtain ⟨m, rfl⟩ : ∃ more, m = more + 1 := ⟨m - 1, by omega⟩
      obtain ⟨next, further⟩ := explored.visit tidy
      have length : (seen ++ [names]).length = seen.length + 1 := by simp
      simp only [visitsWithin, step?]
      have later := ih (m := m) (by omega) (by omega) _ further
      rw [later]

/-- Whether a path leads to the same in two trees, and has the same canonical form. -/
def SameAt (d d' : Disk) (p : Path) : Prop :=
  d'.resolve p = d.resolve p ∧ d'.lookUp p = d.lookUp p ∧ d'.canonical? p = d.canonical? p

/-- Whether visiting an entry comes to the same in two trees, which agree on the file that it may
be. -/
def VisitedAlike (d d' : Disk) (entry : Pending) : Prop :=
  (visit d' entry).2 = (visit d entry).2 ∧ (visit d' entry).1.file? = (visit d entry).1.file? ∧
    ∀ p, (visit d entry).1.file? = some p → SameAt d d' p

section Agree

open Disk (Agree)

variable {places : List Location} {d d' : Disk} (agree : Agree places d d')
  (outside : ∀ place ∈ places, ¬ root <+: place)
include agree outside

private theorem Placed.alike_of_directory {names : List Name} {entry : Pending}
    (there : d.node? (root ++ names) = some .directory)
    (placed : Placed d start root names entry) (placed' : Placed d' start root names entry) :
    VisitedAlike d d' entry := by
  have inside : root <+: root ++ names := List.prefix_append root names
  have there' := (agree.node?_below outside inside).trans there
  rcases placed.visit_directory there with ⟨reached, visited⟩ | ⟨e, refused, visited⟩ <;>
    rcases placed'.visit_directory there' with ⟨reached', visited'⟩ | ⟨e', refused', visited'⟩
  · simp [VisitedAlike, visited, visited', listed, agree.children outside inside, Visit.file?]
  · simp [resolve_refused refused'] at reached
  · simp [resolve_refused refused] at reached'
  · simp [VisitedAlike, visited, visited', Visit.file?]

private theorem Placed.sameAt_of_not_link {names : List Name} {entry : Pending}
    (placed : Placed d start root names entry) (placed' : Placed d' start root names entry)
    (no_link : entry.kind ≠ .link) : SameAt d d' entry.path := by
  have same := agree.node?_below outside (List.prefix_append root names)
  have resolved : d'.resolve entry.path = d.resolve entry.path := by
    rcases placed.reached no_link with reached | ⟨e, refused⟩
    · rcases placed'.reached no_link with reached' | ⟨e', refused'⟩
      · rw [reached, reached']
      · simp [resolve_refused refused'] at reached
    · rw [resolve_refused refused, resolve_refused refused]
  refine ⟨resolved, ?_, agree.canonical? fun l member leads => ?_⟩
  · rcases placed.reached no_link with reached | ⟨e, refused⟩
    · simp only [Disk.lookUp, resolved, reached, same]
    · simp only [Disk.lookUp, resolve_refused refused]
  · have arrived := Disk.descend_mayBeMissing (placed.walked no_link)
    rw [leads] at arrived
    exact outside l member (Except.ok.inj arrived ▸ List.prefix_append root names)

omit outside in
private theorem alike_of_link {entry : Pending} (kind : entry.kind = .link)
    (clear : ∀ place ∈ places, d.locate ⟨true, true⟩ entry.path ≠ .ok place) :
    VisitedAlike d d' entry := by
  rcases agree.lookUp clear with ⟨resolved, found⟩ | ⟨⟨e, failed⟩, e', failed'⟩
  · have file : d'.isFile entry.path = d.isFile entry.path := by simp only [Disk.isFile, found]
    refine ⟨by simp [visit, kind], by simp [visit, kind, file], fun p found' => ?_⟩
    by_cases isFile : d.isFile entry.path = true
    · have here : entry.path = p := by simpa [visit, kind, isFile, Visit.file?] using found'
      have accepted : entry.path.refusal? = none := by
        cases refused : entry.path.refusal? with
        | none => rfl
        | some e => simp [Disk.isFile, Disk.lookUp, resolve_refused refused] at isFile
      have canonical : d'.canonical? entry.path = d.canonical? entry.path := by
        refine agree.canonical? fun l member leads => clear l member ?_
        rw [Disk.locate_eq, accepted]
        exact leads
      exact here ▸ ⟨resolved, found, canonical⟩
    · simp [visit, kind, isFile, Visit.file?] at found'
  · simp [VisitedAlike, visit, kind, Disk.isFile, failed, failed', Visit.file?]

private theorem Placed.visit_agree {names : List Name} {entry : Pending}
    (clear : ∀ target, d.node? (root ++ names) = some (.link target) →
      ∀ place ∈ places, d.locate ⟨true, true⟩ entry.path ≠ .ok place)
    (placed : Placed d start root names entry) (placed' : Placed d' start root names entry) :
    VisitedAlike d d' entry := by
  obtain ⟨node, there, kind⟩ := placed.node
  by_cases directory : node = .directory
  · exact placed.alike_of_directory agree outside (directory ▸ there) placed'
  have kind : entry.kind = .ofNode node := kind.resolve_right fun h => directory h.2
  have regular (kind : entry.kind = .regular) : VisitedAlike d d' entry := by
    refine ⟨by simp [visit, kind], by simp [visit, kind], fun p found => ?_⟩
    have here : entry.path = p := by simpa [visit, kind, Visit.file?] using found
    exact here ▸ placed.sameAt_of_not_link agree outside placed' (by simp [kind])
  cases node with
  | file content => exact regular kind
  | unreadable => exact regular kind
  | directory => exact absurd rfl directory
  | link target => exact alike_of_link agree kind (clear target there)
  | socket => simp [VisitedAlike, visit, kind, EntryKind.ofNode, Visit.file?]
  | device => simp [VisitedAlike, visit, kind, EntryKind.ofNode, Visit.file?]

private theorem visitsWithin_agree (tidy : d.TidyBelow root)
    (clear : ∀ names target, d.node? (root ++ names) = some (.link target) →
      ∀ place ∈ places, d.locate ⟨true, true⟩ (names.foldl Path.join start) ≠ .ok place)
    (n : Nat) {pending : List Pending}
    (placed : ∀ entry ∈ pending, ∃ names, Placed d start root names entry ∧ Placed d' start root names entry) :
    (visitsWithin d' n ⟨pending⟩).filterMap Visit.file? =
    (visitsWithin d n ⟨pending⟩).filterMap Visit.file? ∧
      ∀ p ∈ (visitsWithin d n ⟨pending⟩).filterMap Visit.file?, SameAt d d' p := by
  induction n generalizing pending with
  | zero => simp [visitsWithin]
  | succ n ih =>
    cases pending with
    | nil => simp [visitsWithin_nil]
    | cons entry rest =>
      obtain ⟨names, here, here'⟩ := placed entry List.mem_cons_self
      obtain ⟨next, file, same⟩ := here.visit_agree agree outside
        (fun target link => here.path ▸ clear names target link) here'
      have further : ∀ child ∈ (visit d entry).2 ++ rest,
          ∃ names, Placed d start root names child ∧ Placed d' start root names child := by
        intro child member
        rcases List.mem_append.mp member with new | after
        · obtain ⟨reached, directory, listed, there, rfl⟩ := here.of_mem_visit new
          obtain ⟨reached', directory'⟩ := agree.resolve_of_directory reached directory
          have there' : listed ∈ d'.children (root ++ names) := by
            rwa [agree.children outside (List.prefix_append root names)]
          exact ⟨names ++ [listed.1], here.child tidy reached directory there,
            here'.child (agree.tidyBelow outside tidy) reached' directory' there'⟩
        · exact placed child (List.mem_cons_of_mem entry after)
      obtain ⟨files, sames⟩ := ih further
      simp only [visitsWithin, step?, next, List.filterMap_cons, file]
      cases found : (visit d entry).1.file? with
      | none => exact ⟨files, sames⟩
      | some p =>
        refine ⟨congrArg (p :: ·) files, ?_⟩
        simpa using ⟨same p found, by simpa using sames⟩

end Agree

def filesBelow (disk : Disk) (start : Path) : List Path :=
  ((below start).visits disk).filterMap Visit.file?

private theorem filesBelow_of_not_directory (other : disk.isDirectory start = false) :
    filesBelow disk start = [] := by
  have stopped : (visit disk ⟨start, .start⟩).2 = [] ∧
    (visit disk ⟨start, .start⟩).1.file? = none := by
    unfold Disk.isDirectory at other
    unfold visit
    cases found : disk.lookUp start with
    | error e => simp [Visit.file?]
    | ok node => cases node <;> simp_all [Visit.file?]
  have enough : Walk.enough disk (below start) = disk.entries.length + 1 + 1 := by
    simp [Walk.enough, below, Nat.add_comm]
  rw [filesBelow, visits, enough]
  simp [visitsWithin, step?, below, stopped]

private theorem placed_start {l : Location} (reached : disk.resolve start = .ok l)
    (directory : disk.node? l = some .directory) :
    Placed disk start l [] ⟨start, .start⟩ := by
  refine ⟨rfl, ⟨.directory, ?_, .inr ⟨rfl, rfl⟩⟩, fun _ => ?_⟩
  · rwa [List.append_nil]
  · rw [List.append_nil]
    exact (Disk.descend_of_resolve reached).2

/-- A walk from a directory of a tidy tree is at its end within as many visits as there are entries,
and one. -/
theorem visits_of_placed {l : Location} (tidy : disk.TidyBelow l)
    (placed : Placed disk start l [] ⟨start, .start⟩) {n : Nat}
    (enough : disk.entries.length + 1 ≤ n) :
    (below start).visits disk = visitsWithin disk n (below start) := by
  have explored : Explored disk start l [] [[]] (below start) := by
    refine ⟨?_, by simp, by simp⟩
    exact List.forall₂_cons.mpr ⟨placed, List.Forall₂.nil⟩
  refine explored.visitsWithin_eq tidy ?_ (by simpa using enough)
  simp [Walk.enough, below]

private theorem visits_below {l : Location} (tidy : disk.TidyBelow l)
    (reached : disk.resolve start = .ok l) (directory : disk.node? l = some .directory) {n : Nat}
    (enough : disk.entries.length + 1 ≤ n) :
    (below start).visits disk = visitsWithin disk n (below start) :=
  visits_of_placed tidy (placed_start reached directory) enough

/-- A path below which the places of some files are not found: none of them lies at or below the
place of the path, and no link below leads to one of them. -/
structure ClearOf (disk : Disk) (start : Path) (places : List Location) : Prop where
  outside : ∀ root, disk.resolve start = .ok root → ∀ place ∈ places, ¬ root <+: place
  links : ∀ root names target, disk.resolve start = .ok root →
    disk.node? (root ++ names) = some (.link target) →
    ∀ place ∈ places, disk.locate ⟨true, true⟩ (names.foldl Path.join start) ≠ .ok place

/-- Walks through trees that agree but for places outside find the same files, and each of these
leads to the same in both trees. -/
theorem filesBelow_agree {places : List Location} {d d' : Disk} (agree : Disk.Agree places d d')
    (tidy : d.Tidy) (clear : ClearOf d start places) :
    filesBelow d' start = filesBelow d start ∧ ∀ p ∈ filesBelow d start, SameAt d d' p := by
  by_cases directory : d.isDirectory start = true
  swap
  · have other : d.isDirectory start = false := by simpa using directory
    have other' : d'.isDirectory start = false := (agree.isDirectory start).trans other
    simp [filesBelow_of_not_directory other, filesBelow_of_not_directory other']
  obtain ⟨l, reached, there⟩ := Disk.isDirectory_iff.mp directory
  obtain ⟨reached', there'⟩ := agree.resolve_of_directory reached there
  have outside := clear.outside l reached
  have below := tidy.tidyBelow l
  have below' := agree.tidyBelow outside below
  rw [filesBelow, filesBelow,
    visits_below below reached there (Nat.le_add_right _ d'.entries.length),
    visits_below below' reached' there' (n := d.entries.length + 1 + d'.entries.length) (by omega)]
  refine visitsWithin_agree agree outside below
    (fun names target => clear.links l names target reached) _ ?_
  intro entry member
  rw [List.mem_singleton.mp member]
  exact ⟨[], placed_start reached there, placed_start reached' there'⟩

end Walk

end TextArchive.File
