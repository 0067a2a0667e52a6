import TextArchive.Proofs.File.Part

/-!
Walks through a tree of which a part goes while they are under way. What is left of the tree is
walked to the end, no more is found than would have been and in the same order, and nothing is
missed that can still be reached.
-/

set_option autoImplicit false
set_option relaxedAutoImplicit false

namespace TextArchive.File.Walk

open Disk (Part)

variable {disk whole part : Disk} {start : Path} {root : Location}

/-- The visits by which a walk gets on to another one. -/
inductive Passes (disk : Disk) : Walk → List Visit → Walk → Prop
  | stay (walk : Walk) : Passes disk walk [] walk
  | next {walk further last : Walk} {found : Visit} {visits : List Visit}
      (stepped : step? disk walk = some (found, further)) (rest : Passes disk further visits last) :
      Passes disk walk (found :: visits) last

private theorem Ends.passes {walk : Walk} {visits : List Visit} (ends : Ends disk walk visits) :
    Passes disk walk visits ⟨[]⟩ := by
  induction ends with
  | done => exact .stay _
  | next stepped _ ih => exact .next stepped ih

private theorem Ends.split {walk last : Walk} {visits first : List Visit}
    (ends : Ends disk walk visits)
    (passes : Passes disk walk first last) : ∃ rest, visits = first ++ rest ∧
    Ends disk last rest := by
  induction passes generalizing visits with
  | stay walk => exact ⟨visits, rfl, ends⟩
  | next stepped _ ih =>
    cases ends with
    | done => cases stepped
    | next stepped' rest =>
      rw [stepped] at stepped'
      obtain ⟨rfl, rfl⟩ := Prod.mk.inj (Option.some.inj stepped')
      obtain ⟨later, rfl, ends⟩ := ih rest
      exact ⟨later, rfl, ends⟩

private theorem advanceWithin_passes (n files : Nat) (walk : Walk) :
    Passes disk walk (advanceWithin disk n files walk).1 (advanceWithin disk n files walk).2 := by
  induction n generalizing files walk with
  | zero => cases files <;> exact .stay walk
  | succ n ih =>
    cases files with
    | zero => exact .stay walk
    | succ files =>
      cases stepped : step? disk walk with
      | none => simpa only [advanceWithin, stepped] using Passes.stay walk
      | some further =>
        obtain ⟨found, further⟩ := further
        simp only [advanceWithin, stepped]
        exact .next stepped (ih _ further)

private theorem Ends.files_advanceWithin {walk : Walk} {visits : List Visit}
    (ends : Ends disk walk visits) {n : Nat} (enough : visits.length ≤ n) (files : Nat) :
    (advanceWithin disk n files walk).1.filterMap Visit.file? =
    (visits.filterMap Visit.file?).take files := by
  induction ends generalizing n files with
  | done => cases n <;> cases files <;> rfl
  | @next walk further found visits stepped _ ih =>
    obtain ⟨n, rfl⟩ : ∃ fewer, n = fewer + 1 := ⟨n - 1, by simp at enough; omega⟩
    have fewer : visits.length ≤ n := by simpa using enough
    cases files with
    | zero => rfl
    | succ files =>
      simp only [advanceWithin, stepped]
      cases found with
      | file p => simp [Visit.file?, ih fewer]
      | failed p e => exact ih fewer (files + 1)
      | nothing => exact ih fewer (files + 1)

private theorem length_visitsWithin_le (n : Nat) (walk : Walk) :
    (visitsWithin disk n walk).length ≤ n := by
  induction n generalizing walk with
  | zero => exact Nat.le_refl 0
  | succ n ih =>
    unfold visitsWithin
    split
    · exact Nat.zero_le _
    · exact Nat.succ_le_succ (ih _)

private theorem Explored.passes (tidy : disk.TidyBelow root) {walk last : Walk}
    {visits : List Visit} {seen ahead : List (List Name)}
    (explored : Explored disk start root seen ahead walk) (passes : Passes disk walk visits last) :
    ∃ seen ahead, Explored disk start root seen ahead last := by
  induction passes generalizing seen ahead with
  | stay walk => exact ⟨seen, ahead, explored⟩
  | @next walk further last found visits stepped _ ih =>
    obtain ⟨_ | ⟨entry, rest⟩⟩ := walk
    · cases stepped
    · simp only [step?, Option.some.injEq, Prod.mk.injEq] at stepped
      obtain ⟨-, rfl⟩ := stepped
      obtain ⟨names, ahead, -, -, rfl⟩ := List.forall₂_cons_right_iff.mp explored.placed
      obtain ⟨next, further⟩ := explored.visit tidy
      exact ih further

private theorem Explored.exists_placed {walk : Walk} {seen ahead : List (List Name)}
    (explored : Explored disk start root seen ahead walk) :
    ∀ entry ∈ walk.pending, ∃ names, Placed disk start root names entry := by
  have placed := explored.placed
  clear explored
  generalize walk.pending = pending at placed ⊢
  induction placed with
  | nil => simp
  | cons here _ ih => exact List.forall_mem_cons.mpr ⟨⟨_, here⟩, ih⟩

/-! ### One visit to what is left of an entry -/

private theorem enter_cases (disk : Disk) (directory : Path) :
    (∃ l, disk.resolve directory = .ok l ∧ disk.node? l = some .directory ∧
      enter disk directory = (.nothing, listed disk directory l)) ∨
    ∃ e, enter disk directory = (.failed directory e, []) := by
  cases reached : disk.resolve directory with
  | error e => exact .inr ⟨e, enter_error reached⟩
  | ok l =>
    by_cases there : disk.node? l = some .directory
    · exact .inl ⟨l, rfl, there, enter_directory reached there⟩
    · exact .inr ⟨.notADirectory, by simp [enter, listing, reached, there]⟩

section Visit

variable (within : Part whole part) {names : List Name} {entry : Pending}
include within

private theorem Placed.enter_part (placed : Placed whole start root names entry)
    (no_link : entry.kind ≠ .link) :
    (part.resolve entry.path = .ok (root ++ names) ∧ part.node? (root ++ names) = some .directory ∧
      enter part entry.path = (.nothing, listed part entry.path (root ++ names))) ∨
    ∃ e, enter part entry.path = (.failed entry.path e, []) := by
  rcases enter_cases part entry.path with ⟨l, reached, there, entered⟩ | failed
  swap
  · exact .inr failed
  have reached' := within.resolve reached
  rcases placed.reached no_link with own | ⟨e, refused⟩
  · obtain rfl : l = root ++ names := Except.ok.inj (reached'.symm.trans own)
    exact .inl ⟨reached, there, entered⟩
  · rw [resolve_refused refused] at reached'
    cases reached'

private theorem Placed.visit_part (placed : Placed whole start root names entry) :
    (part.resolve entry.path = .ok (root ++ names) ∧ part.node? (root ++ names) = some .directory ∧
      visit part entry = (.nothing, listed part entry.path (root ++ names))) ∨
    (visit part entry).2 = [] ∧
      ((visit part entry).1.file? = none ∨
      (visit part entry).1.file? = (visit whole entry).1.file?) := by
  have entering (no_link : entry.kind ≠ .link) (same : visit part entry = enter part entry.path) :
      (part.resolve entry.path = .ok (root ++ names) ∧ part.node? (root ++ names) = some .directory ∧
        visit part entry = (.nothing, listed part entry.path (root ++ names))) ∨
      (visit part entry).2 = [] ∧
        ((visit part entry).1.file? = none ∨ (visit part entry).1.file? = (visit whole entry).1.file?) := by
    rw [same]
    rcases placed.enter_part within no_link with entered | ⟨e, failed⟩
    · exact .inl entered
    · exact .inr ⟨by rw [failed], .inl (by rw [failed]; rfl)⟩
  cases kind : entry.kind with
  | start =>
    cases found : part.lookUp entry.path with
    | error e => exact .inr (by simp [visit, kind, found, Visit.file?])
    | ok node =>
      cases node with
      | directory => exact entering (by simp [kind]) (by simp [visit, kind, found])
      | _ => exact .inr (by simp [visit, kind, found, Visit.file?])
  | directory => exact entering (by simp [kind]) (by simp [visit, kind])
  | regular => exact .inr (by simp [visit, kind, Visit.file?])
  | link =>
    refine .inr ⟨by simp [visit, kind], ?_⟩
    by_cases leads : part.isFile entry.path = true
    · exact .inr (by simp [visit, kind, leads, within.isFile leads])
    · exact .inl (by simp [visit, kind, leads, Visit.file?])
  | other => exact .inr (by simp [visit, kind, Visit.file?])

private theorem Placed.sublist_visit (tidy : whole.TidyBelow root)
    (placed : Placed whole start root names entry) :
    (visit part entry).2.Sublist (visit whole entry).2 ∧
      ((visit part entry).1.file? = none ∨
      (visit part entry).1.file? = (visit whole entry).1.file?) := by
  rcases placed.visit_part within with ⟨reached, there, visited⟩ | ⟨nothing, file⟩
  · have visited' : visit whole entry = (.nothing, listed whole entry.path (root ++ names)) := by
      rcases placed.visit_directory (within.nodes there) with ⟨-, visited'⟩ | ⟨e, refused, -⟩
      · exact visited'
      · rw [resolve_refused refused] at reached
        cases reached
    rw [visited, visited']
    exact ⟨(within.sorted_children (tidy.nodup_children (List.prefix_append root names))).map
      _, .inl rfl⟩
  · exact ⟨nothing ▸ List.nil_sublist _, file⟩

private theorem Explored.visit_part (tidy : whole.TidyBelow root) {seen ahead : List (List Name)}
    {rest : List Pending}
    (explored : Explored whole start root seen (names :: ahead) ⟨entry :: rest⟩) :
    ∃ next, Explored whole start root (seen ++ [names]) (next ++ ahead)
    ⟨(Walk.visit part entry).2 ++ rest⟩ ∧
      ∀ names ∈ next, root ++ names ∈ part.entries.map (·.1) := by
  obtain ⟨placed, -⟩ := List.forall₂_cons.mp explored.placed
  rcases placed.visit_part within with ⟨reached, there, visited⟩ | ⟨nothing, -⟩
  · have same := List.mergeSort_perm (part.children (root ++ names)) fun a b => bytesLe a.1 b.1
    have once := tidy.nodup_children (List.prefix_append root names)
    have distinct := (same.map (·.1)).nodup_iff.mpr
      (once.sublist ((within.children (root ++ names)).map (·.1)))
    rw [visited]
    refine ⟨_, explored.enter tidy (within.resolve reached) (within.nodes there) distinct
      fun child member => (within.children _).subset (same.mem_iff.mp member), ?_⟩
    intro met member
    obtain ⟨child, here, rfl⟩ := List.mem_map.mp member
    rw [← List.append_assoc]
    exact List.mem_map.mpr ⟨_, Disk.mem_children.mp (same.mem_iff.mp here), rfl⟩
  · exact ⟨[], by simpa [nothing] using explored.leave, by simp⟩

end Visit

/-! ### Going on in what is left -/

section GoingOn

variable (within : Part whole part) (tidy : whole.TidyBelow root)
include within tidy

private theorem Ends.exists_part {walk : Walk} {visits : List Visit} (ends : Ends whole walk visits)
    {left : List Pending}
    (placed : ∀ entry ∈ walk.pending, ∃ names, Placed whole start root names entry)
    (fewer : left.Sublist walk.pending) :
    ∃ later, Ends part ⟨left⟩ later ∧ (later.filterMap Visit.file?).Sublist
    (visits.filterMap Visit.file?) := by
  induction ends generalizing left with
  | done => exact ⟨[], List.sublist_nil.mp fewer ▸ .done, .refl _⟩
  | @next walk further found visits stepped _ ih =>
    obtain ⟨_ | ⟨entry, rest⟩⟩ := walk
    · cases stepped
    simp only [step?, Option.some.injEq, Prod.mk.injEq] at stepped
    obtain ⟨rfl, rfl⟩ := stepped
    obtain ⟨names, here⟩ := placed entry List.mem_cons_self
    have onward : ∀ next ∈ (visit whole entry).2 ++ rest, ∃ names,
      Placed whole start root names next := by
      intro next member
      rcases List.mem_append.mp member with new | after
      · obtain ⟨reached, directory, child, listed, rfl⟩ := here.of_mem_visit new
        exact ⟨_, here.child tidy reached directory listed⟩
      · exact placed next (List.mem_cons_of_mem entry after)
    cases fewer with
    | cons _ fewer =>
      obtain ⟨later, ends, files⟩ := ih onward (fewer.trans (List.sublist_append_right _ rest))
      refine ⟨later, ends, files.trans ?_⟩
      exact (List.sublist_cons_self _ visits).filterMap _
    | cons_cons _ fewer =>
      obtain ⟨next, file⟩ := here.sublist_visit within tidy
      obtain ⟨later, ends, files⟩ := ih onward (next.append fewer)
      refine ⟨(visit part entry).1 :: later, .next rfl ends, ?_⟩
      rcases file with none | same
      · rw [List.filterMap_cons_none none]
        exact files.trans ((List.sublist_cons_self _ visits).filterMap _)
      · simp only [List.filterMap_cons, same]
        split
        · exact files
        · exact files.cons_cons _

private theorem Ends.length_le {walk : Walk} {visits : List Visit} (ends : Ends part walk visits)
    {known seen ahead : List (List Name)} (explored : Explored whole start root seen ahead walk)
    (accounted : ∀ names ∈ seen ++ ahead, names ∈ known ∨ root ++ names ∈ part.entries.map (·.1)) :
    visits.length + seen.length ≤ known.length + part.entries.length := by
  induction ends generalizing seen ahead with
  | done =>
    have distinct : ((seen ++ ahead).map (root ++ ·)).Nodup :=
      explored.once.map fun _ _ same => List.append_cancel_left same
    have inside : (seen ++ ahead).map (root ++ ·) ⊆ known.map (root ++ ·) ++ part.entries.map
      (·.1) := by
      intro place member
      obtain ⟨names, here, rfl⟩ := List.mem_map.mp member
      exact List.mem_append.mpr ((accounted names here).imp_left (List.mem_map_of_mem))
    have bound := (distinct.subperm inside).length_le
    simp only [List.length_map, List.length_append] at bound
    simp only [List.length_nil]
    omega
  | @next walk further found visits stepped _ ih =>
    obtain ⟨_ | ⟨entry, rest⟩⟩ := walk
    · cases stepped
    simp only [step?, Option.some.injEq, Prod.mk.injEq] at stepped
    obtain ⟨-, rfl⟩ := stepped
    obtain ⟨names, ahead, -, -, rfl⟩ := List.forall₂_cons_right_iff.mp explored.placed
    obtain ⟨next, further, left⟩ := explored.visit_part within tidy
    have bound := ih further fun other member => by
      rw [List.append_assoc, List.mem_append, List.singleton_append, List.mem_cons,
        List.mem_append] at member
      rcases member with before | here | new | after
      · exact accounted other (List.mem_append_left _ before)
      · exact accounted other (by simp [here])
      · exact .inr (left other new)
      · exact accounted other (by simp [after])
    simp only [List.length_append, List.length_singleton] at bound
    simp only [List.length_cons]
    omega

private theorem Ends.visits_part {walk : Walk} {visits : List Visit} (ends : Ends part walk visits)
    {seen ahead : List (List Name)}
    (explored : Explored whole start root seen ahead walk) : walk.visits part = visits := by
  have bound := ends.length_le within tidy explored fun names member => .inl member
  have pending := explored.placed.length_eq
  refine ends.visitsWithin ?_
  simp only [List.length_append] at bound
  simp only [enough]
  omega

end GoingOn

/-! ### What can still be reached -/

/-- Names of which all paths before the last lead to directories, and the last to what counts as a
file. -/
structure Accessible (disk : Disk) (start : Path) (root : Location) (names : List Name) : Prop where
  passed : ∀ above, above <+: names → above ≠ names →
    disk.resolve (above.foldl Path.join start) = .ok (root ++ above) ∧
      disk.node? (root ++ above) = some .directory
  file : CountsAsFile disk start root names

/-- Whether an entry that is still to be visited lies on the way that some names lead. -/
def Toward (disk : Disk) (start : Path) (root : Location) (names : List Name)
    (pending : List Pending) : Prop :=
  ∃ entry ∈ pending, ∃ above, Placed disk start root above entry ∧ above <+: names

private theorem Accessible.of_part {names : List Name} (within : Part whole part)
    (accessible : Accessible part start root names) :
    Accessible whole start root names where
  passed above before other :=
    (accessible.passed above before other).imp within.resolve within.nodes
  file := by
    obtain ⟨node, there, counts⟩ := accessible.file
    exact ⟨node, within.nodes there, counts.imp_right (And.imp_right within.isFile)⟩

section Toward

variable (within : Part whole part) {names : List Name}
    (accessible : Accessible part start root names)
include within accessible

private theorem Placed.file_part {entry : Pending} (placed : Placed whole start root names entry) :
    (visit part entry).1.file? = some (names.foldl Path.join start) := by
  obtain ⟨node, there, counts⟩ := accessible.file
  obtain ⟨node', there', kind⟩ := placed.node
  obtain rfl : node' = node := Option.some.inj (there'.symm.trans (within.nodes there))
  have kind : entry.kind = .ofNode node' := by
    refine kind.resolve_right fun start => ?_
    simp [start.2, Node.isRegular] at counts
  rw [← placed.path] at counts ⊢
  rcases counts with regular | ⟨⟨target, rfl⟩, leads⟩
  · cases node' with
    | file content => simp [visit, kind, EntryKind.ofNode, Visit.file?]
    | unreadable => simp [visit, kind, EntryKind.ofNode, Visit.file?]
    | _ => simp [Node.isRegular] at regular
  · simp [visit, kind, EntryKind.ofNode, leads, Visit.file?]

variable (tidy : whole.TidyBelow root)
include tidy

private theorem Placed.toward_part {above : List Name} {entry : Pending}
    (placed : Placed whole start root above entry) (before : above <+: names)
    (other : above ≠ names) :
    Toward whole start root names (visit part entry).2 := by
  obtain ⟨resolved, directory⟩ := accessible.passed above before other
  rw [← placed.path] at resolved
  have here : Placed part start root above entry := by
    refine ⟨placed.path, ⟨.directory, directory, ?_⟩, fun _ => (Disk.descend_of_resolve resolved).2⟩
    obtain ⟨node, there, kind⟩ := placed.node
    obtain rfl : node = .directory := Option.some.inj (there.symm.trans (within.nodes directory))
    exact kind
  have visited : (visit part entry).2 = listed part entry.path (root ++ above) := by
    rcases here.visit_directory directory with ⟨-, visited⟩ | ⟨e, refused, -⟩
    · rw [visited]
    · rw [resolve_refused refused] at resolved
      cases resolved
  obtain ⟨rest, rfl⟩ := before
  obtain ⟨name, rest, rfl⟩ := List.exists_cons_of_ne_nil (l := rest) (by rintro rfl; simp at other)
  have onward : above ++ [name] <+: above ++ name :: rest := ⟨rest, by simp⟩
  obtain ⟨node, there⟩ : ∃ node, part.node? (root ++ (above ++ [name])) = some node := by
    by_cases last : above ++ [name] = above ++ name :: rest
    · obtain ⟨node, there, -⟩ := accessible.file
      exact ⟨node, last ▸ there⟩
    · exact ⟨_, (accessible.passed _ onward last).2⟩
  rw [← List.append_assoc] at there
  have member : (name, node) ∈ part.children (root ++ above) :=
    Disk.mem_children.mpr (Disk.mem_of_node? there (by simp))
  refine ⟨⟨entry.path.join name, .ofNode node⟩, ?_, above ++ [name], ?_, onward⟩
  · rw [visited]
    exact List.mem_map.mpr ⟨(name, node), List.mem_mergeSort.mpr member, rfl⟩
  · exact placed.child tidy (within.resolve resolved) (within.nodes directory)
      ((within.children _).subset member)

private theorem Toward.passes {walk last : Walk} {visits : List Visit}
    (passes : Passes part walk visits last) (toward : Toward whole start root names walk.pending) :
    names.foldl Path.join start ∈ visits.filterMap Visit.file? ∨
    Toward whole start root names last.pending := by
  induction passes with
  | stay walk => exact .inr toward
  | @next walk further last found visits stepped _ ih =>
    obtain ⟨_ | ⟨entry, rest⟩⟩ := walk
    · cases stepped
    simp only [step?, Option.some.injEq, Prod.mk.injEq] at stepped
    obtain ⟨rfl, rfl⟩ := stepped
    have later (toward : Toward whole start root names ((visit part entry).2 ++ rest)) :
        names.foldl Path.join start ∈ ((visit part entry).1 :: visits).filterMap Visit.file? ∨
          Toward whole start root names last.pending :=
      (ih toward).imp_left fun member =>
        ((List.sublist_cons_self _ visits).filterMap _).subset member
    obtain ⟨other, member, above, placed, before⟩ := toward
    rcases List.mem_cons.mp member with rfl | after
    · by_cases arrived : above = names
      · subst arrived
        left
        rw [List.filterMap_cons_some (placed.file_part within accessible)]
        exact List.mem_cons_self
      · obtain ⟨next, listed, toward⟩ := placed.toward_part within accessible tidy before arrived
        exact later ⟨next, List.mem_append_left rest listed, toward⟩
    · exact later ⟨other, List.mem_append_right _ after, above, placed, before⟩

end Toward

/-- A walk that finds a number of files while the tree is whole and goes on in what is left of it
comes to its end. What it finds would have been found in the whole tree, in the same order, and what
can still be reached is found. -/
theorem found_over_part (within : Part whole part) (tidy : whole.TidyBelow root)
    (placed : Placed whole start root [] ⟨start, .start⟩) (files : Nat) :
    let first := (below start).advance whole files
    let later := first.2.visits part
    first.1.filterMap Visit.file? = (filesBelow whole start).take files ∧ Ends part first.2 later ∧
      ((first.1 ++ later).filterMap Visit.file?).Sublist (filesBelow whole start) ∧
      ∀ names, Accessible part start root names →
        names.foldl Path.join start ∈ (first.1 ++ later).filterMap Visit.file? := by
  intro first later
  have ends := (filesBelow_spec tidy placed).1
  have passes : Passes whole (below start) first.1 first.2 := advanceWithin_passes _ files _
  obtain ⟨rest, visits, further⟩ := ends.split passes
  have explored : Explored whole start root [] [[]] (below start) :=
    ⟨List.forall₂_cons.mpr ⟨placed, List.Forall₂.nil⟩, by simp, by simp⟩
  obtain ⟨seen, ahead, explored⟩ := explored.passes tidy passes
  obtain ⟨found, ends', fewer⟩ :=
    further.exists_part within tidy explored.exists_placed (List.Sublist.refl _)
  obtain rfl : later = found := ends'.visits_part within tidy explored
  refine ⟨ends.files_advanceWithin (length_visitsWithin_le _ _) files, ends', ?_,
    fun names accessible => ?_⟩
  · rw [filesBelow, visits, List.filterMap_append, List.filterMap_append]
    exact fewer.append_left _
  · have toward : Toward whole start root names (below start).pending :=
      ⟨_, List.mem_cons_self, [], placed, List.nil_prefix⟩
    rw [List.filterMap_append, List.mem_append]
    rcases toward.passes (Part.refl whole)
      (accessible.of_part within) tidy passes with before | toward
    · exact .inl before
    rcases toward.passes within accessible tidy ends'.passes with after | ⟨entry, member, -⟩
    · exact .inr after
    · cases member

end TextArchive.File.Walk
