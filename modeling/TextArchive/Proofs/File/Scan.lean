import TextArchive.Proofs.File.Absolute

/-!
What a walk finds: the regular files and the links to such files that lie below its start over
directories that can be listed, each of them once, in the order of their names.
-/

set_option autoImplicit false
set_option relaxedAutoImplicit false

namespace TextArchive.File

private theorem bytesLe_iff {a b : Text.Utf8.Bytes} : bytesLe a b = true ↔ a ≤ b := by
  induction a generalizing b with
  | nil => simp [bytesLe]
  | cons x a ih =>
    cases b with
    | nil => simp [bytesLe]
    | cons y b => simp [bytesLe, ih, List.cons_le_cons_iff]

theorem Disk.pairwise_sorted {disk : Disk} {l : Location}
    (once : ((disk.children l).map (·.1)).Nodup) :
    ((disk.children l).mergeSort fun a b => bytesLe a.1 b.1).Pairwise fun a b => a.1 < b.1 := by
  have sorted : ((disk.children l).mergeSort fun a b => bytesLe a.1 b.1).Pairwise fun a b =>
    bytesLe a.1 b.1 = true :=
    List.pairwise_mergeSort (fun a b c => by simpa only [bytesLe_iff] using List.le_trans)
      (fun a b => by simpa only [Bool.or_eq_true, bytesLe_iff] using List.le_total a.1 b.1) _
  have distinct : ((disk.children l).mergeSort fun a b => bytesLe a.1 b.1).Pairwise fun a b =>
    a.1 ≠ b.1 := by
    have names := ((List.mergeSort_perm (disk.children l) fun a b => bytesLe a.1 b.1).map
      (·.1)).nodup_iff.mpr once
    exact List.pairwise_map.mp names
  refine sorted.imp₂ (fun a b le ne => ?_) distinct
  exact (List.le_iff_lt_or_eq.mp (bytesLe_iff.mp le)).resolve_right ne

namespace Walk

variable {disk : Disk} {start : Path} {root : Location}

inductive Ends (disk : Disk) : Walk → List Visit → Prop
  | done : Ends disk ⟨[]⟩ []
  | next {walk further : Walk} {found : Visit} {visits : List Visit}
      (stepped : step? disk walk = some (found, further)) (rest : Ends disk further visits) :
      Ends disk walk (found :: visits)

private theorem Ends.append {walk : Walk} {visits more : List Visit} {others : List Pending}
    (first : Ends disk walk visits)
    (second : Ends disk ⟨others⟩ more) : Ends disk ⟨walk.pending ++ others⟩ (visits ++ more) := by
  induction first with
  | done => exact second
  | @next walk further found visits stepped _ ih =>
    obtain ⟨_ | ⟨entry, rest⟩⟩ := walk
    · cases stepped
    · simp only [step?, Option.some.injEq, Prod.mk.injEq] at stepped
      obtain ⟨rfl, rfl⟩ := stepped
      have taken : step? disk ⟨entry :: rest ++ others⟩ =
          some ((visit disk entry).1, ⟨(visit disk entry).2 ++ (rest ++ others)⟩) := rfl
      exact .next taken (by simpa using ih)

theorem Ends.visitsWithin {walk : Walk} {visits : List Visit} (ends : Ends disk walk visits)
    {n : Nat}
    (enough : visits.length ≤ n) : Walk.visitsWithin disk n walk = visits := by
  induction ends generalizing n with
  | done => exact visitsWithin_nil n
  | next stepped _ ih =>
    obtain ⟨n, rfl⟩ : ∃ fewer, n = fewer + 1 := ⟨n - 1, by simp at enough; omega⟩
    simp only [Walk.visitsWithin, stepped]
    rw [ih (by simpa using enough)]

/-- Whether names below a root lead to a directory that can be listed. -/
def Listable (disk : Disk) (start : Path) (root : Location) (names : List Name) : Prop :=
  disk.node? (root ++ names) = some .directory ∧ (names.foldl Path.join start).refusal? = none

/-- Over directories that can be listed, paths lead to the places of these directories. -/
theorem resolve_listable {names above : List Name} (reached : disk.resolve start = .ok root)
    (proper : ∀ name ∈ names, ProperName name)
    (passed : ∀ above, above <+: names → above ≠ names → Listable disk start root above)
    (before : above <+: names)
    (other : above ≠ names) : disk.resolve (above.foldl Path.join start) = .ok (root ++ above) := by
  induction above using List.reverseRecOn with
  | nil => rwa [List.foldl_nil, List.append_nil]
  | append_singleton above name ih =>
    have higher : above <+: names := (List.prefix_append above [name]).trans before
    have apart : above ≠ names := by
      rintro rfl
      exact absurd before.length_le (by simp)
    obtain ⟨there, accepted⟩ := passed _ before other
    rw [← List.append_assoc] at there
    rw [List.foldl_concat] at accepted ⊢
    have located := Disk.locate_entry (ih higher apart) (passed above higher apart).1
      (proper name (before.subset (by simp))) there (by simp) ⟨true, false⟩
    rw [Disk.resolve, located, accepted, List.append_assoc]
    rfl

/-- Whether names below a root lead to a regular file, or to a link that leads to one. -/
def CountsAsFile (disk : Disk) (start : Path) (root : Location) (names : List Name) : Prop :=
  ∃ node, disk.node? (root ++ names) = some node ∧
    (node.isRegular = true ∨ (∃ target,
      node = .link target) ∧ disk.isFile (names.foldl Path.join start) = true)

/-- Names that lead on from others, over directories that can be listed, to what counts as a
file. -/
structure FoundBelow (disk : Disk) (start : Path) (root : Location) (names found : List Name) :
    Prop where
  inside : names <+: found
  passed : ∀ above, names <+: above → above <+: found → above ≠ found →
    Listable disk start root above
  file : CountsAsFile disk start root found

/-- Whether pending entries are visited in the end and give the files of certain names, in their
order. -/
def Yields (disk : Disk) (start : Path) (pending : List Pending) (wanted : List Name → Prop) :
    Prop :=
  ∃ (visits : List Visit) (found : List (List Name)), Ends disk ⟨pending⟩ visits ∧
    visits.filterMap Visit.file? = found.map (·.foldl Path.join start) ∧ found.Pairwise (· < ·) ∧
    ∀ names, names ∈ found ↔ wanted names

section Yields

variable {pending others : List Pending} {wanted more : List Name → Prop}

private theorem yields_nil : Yields disk start [] fun _ => False :=
  ⟨[], [], .done, rfl, .nil, by simp⟩

private theorem Yields.congr (yields : Yields disk start pending wanted)
    (same : ∀ names, wanted names ↔ more names) :
    Yields disk start pending more := by
  obtain ⟨visits, found, ends, files, ordered, members⟩ := yields
  exact ⟨visits, found, ends, files, ordered, fun names => (members names).trans (same names)⟩

private theorem Yields.append (first : Yields disk start pending wanted)
    (second : Yields disk start others more) (apart : ∀ a b, wanted a → more b → a < b) :
    Yields disk start (pending ++ others) fun names => wanted names ∨ more names := by
  obtain ⟨visits, found, ends, files, ordered, members⟩ := first
  obtain ⟨visits', found', ends', files', ordered', members'⟩ := second
  refine ⟨visits ++ visits', found ++ found', ends.append ends', ?_, ?_, ?_⟩
  · rw [List.filterMap_append, files, files', List.map_append]
  · refine List.pairwise_append.mpr ⟨ordered, ordered', fun a a_mem b b_mem => ?_⟩
    exact apart a b ((members a).mp a_mem) ((members' b).mp b_mem)
  · intro names
    rw [List.mem_append, members, members']

private theorem Yields.enter {entry : Pending} {found : Visit}
    (visited : visit disk entry = (found, pending)) (no_file : found.file? = none)
    (yields : Yields disk start pending wanted) :
    Yields disk start [entry] wanted := by
  obtain ⟨visits, names, ends, files, ordered, members⟩ := yields
  have stepped : step? disk ⟨[entry]⟩ = some (found, ⟨pending⟩) := by simp [step?, visited]
  refine ⟨found :: visits, names, .next stepped ends, ?_, ordered, members⟩
  rw [List.filterMap_cons_none no_file, files]

private theorem yields_file {entry : Pending} {names : List Name}
    (visited : visit disk entry = (.file (names.foldl Path.join start), [])) :
    Yields disk start [entry] (· = names) := by
  have stepped : step? disk ⟨[entry]⟩ = some (.file (names.foldl Path.join start), ⟨[]⟩) := by
    simp [step?, visited]
  exact ⟨_, [names], .next stepped .done, rfl, List.pairwise_singleton _ _, by simp⟩

private theorem yields_children {names : List Name} {path : Name × Node → Pending}
    {children : List (Name × Node)} (sorted : children.Pairwise fun a b => a.1 < b.1)
    (each : ∀ child ∈ children, Yields disk start [path child] (FoundBelow disk start root (names ++ [child.1]))) :
    Yields disk start (children.map path) fun found =>
      ∃ child ∈ children, FoundBelow disk start root (names ++ [child.1]) found := by
  induction children with
  | nil => exact yields_nil.congr (by simp)
  | cons child children ih =>
    obtain ⟨first, rest⟩ := List.pairwise_cons.mp sorted
    have further := ih rest fun other later => each other (List.mem_cons_of_mem child later)
    have here := each child List.mem_cons_self
    refine (here.append further ?_).congr fun found => ?_
    · rintro a b below ⟨other, later, below'⟩
      obtain ⟨a_rest, rfl⟩ := below.inside
      obtain ⟨b_rest, rfl⟩ := below'.inside
      rw [List.append_assoc, List.append_assoc]
      exact List.append_left_lt (List.cons_lt_cons_iff.mpr (.inl (first other later)))
    · simp

end Yields

section Below

variable {names found : List Name}

theorem no_file_of_directory (directory : disk.node? (root ++ names) = some .directory) :
    ¬ CountsAsFile disk start root names := by
  rintro ⟨node, there, counts⟩
  have same : node = .directory := by simpa [directory] using there.symm
  simp [same, Node.isRegular] at counts

private theorem foundBelow_leaf (closed : ¬ Listable disk start root names) :
    FoundBelow disk start root names found ↔ found = names ∧
    CountsAsFile disk start root names := by
  constructor
  · intro below
    by_cases here : names = found
    · subst here
      exact ⟨rfl, below.file⟩
    · exact absurd (below.passed names (List.prefix_refl names) below.inside here) closed
  · rintro ⟨rfl, file⟩
    refine ⟨List.prefix_refl _, fun above after before other => ?_, file⟩
    exact absurd (before.eq_of_length_le after.length_le) other

private theorem foundBelow_directory (listable : Listable disk start root names) :
    FoundBelow disk start root names found ↔
      ∃ child ∈ disk.children (root ++ names), FoundBelow disk start root
      (names ++ [child.1]) found := by
  constructor
  · intro below
    obtain ⟨rest, rfl⟩ := below.inside
    cases rest with
    | nil =>
      rw [List.append_nil] at below
      exact absurd below.file (no_file_of_directory listable.1)
    | cons name rest =>
      have inside : names ++ [name] <+: names ++ name :: rest := ⟨rest, by simp⟩
      obtain ⟨node, there⟩ : ∃ node, disk.node? (root ++ (names ++ [name])) = some node := by
        by_cases last : names ++ [name] = names ++ name :: rest
        · obtain ⟨node, there, -⟩ := below.file
          exact ⟨node, last ▸ there⟩
        · exact ⟨_, (below.passed _ (List.prefix_append _ _) inside last).1⟩
      rw [← List.append_assoc] at there
      have listed := Disk.mem_of_node? there (by simp)
      refine ⟨(name, node), Disk.mem_children.mpr listed, inside,
        fun above after before other => ?_, below.file⟩
      exact below.passed above ((List.prefix_append _ _).trans after) before other
  · rintro ⟨child, -, below⟩
    refine ⟨(List.prefix_append _ _).trans below.inside,
      fun above after before other => ?_, below.file⟩
    by_cases here : above = names
    · exact here ▸ listable
    · refine below.passed above ?_ before other
      obtain ⟨rest, rfl⟩ := after
      obtain ⟨more, rfl⟩ := below.inside
      cases rest with
      | nil => simp at here
      | cons name rest =>
        rw [List.append_assoc, List.prefix_append_right_inj] at before
        obtain ⟨rfl, -⟩ := List.cons_prefix_cons.mp before
        exact ⟨rest, by simp⟩

end Below

private theorem Placed.visit_leaf {names : List Name} {entry : Pending}
    (placed : Placed disk start root names entry)
    (other : disk.node? (root ++ names) ≠ some .directory) :
    CountsAsFile disk start root names ∧ visit disk entry =
    (.file (names.foldl Path.join start), []) ∨
      ¬ CountsAsFile disk start root names ∧ visit disk entry = (.nothing, []) := by
  obtain ⟨node, there, kind⟩ := placed.node
  have kind : entry.kind = .ofNode node := kind.resolve_right fun start => other (start.2 ▸ there)
  have counts : CountsAsFile disk start root names ↔
      node.isRegular = true ∨ (∃ target, node = .link target) ∧ disk.isFile entry.path = true := by
    simp [CountsAsFile, there, placed.path]
  rw [counts, ← placed.path]
  cases node with
  | directory => exact absurd there other
  | file content => exact .inl ⟨.inl rfl, by simp [visit, kind, EntryKind.ofNode]⟩
  | unreadable => exact .inl ⟨.inl rfl, by simp [visit, kind, EntryKind.ofNode]⟩
  | link target =>
    by_cases leads : disk.isFile entry.path = true
    · exact .inl ⟨.inr ⟨⟨target, rfl⟩, leads⟩, by simp [visit, kind, EntryKind.ofNode, leads]⟩
    · exact .inr ⟨by simp [Node.isRegular, leads], by simp [visit, kind, EntryKind.ofNode, leads]⟩
  | socket => exact .inr ⟨by simp [Node.isRegular], by simp [visit, kind, EntryKind.ofNode]⟩
  | device => exact .inr ⟨by simp [Node.isRegular], by simp [visit, kind, EntryKind.ofNode]⟩

private theorem Placed.yields_over (tidy : disk.TidyBelow root) {names : List Name}
    {entry : Pending} (placed : Placed disk start root names entry)
    (each : disk.resolve entry.path = .ok (root ++ names) → disk.node? (root ++ names) = some .directory →
      ∀ child ∈ disk.children (root ++ names), Yields disk start
      [⟨entry.path.join child.1, .ofNode child.2⟩]
        (FoundBelow disk start root (names ++ [child.1]))) :
    Yields disk start [entry] (FoundBelow disk start root names) := by
  by_cases directory : disk.node? (root ++ names) = some .directory
  · rcases placed.visit_directory directory with ⟨reached, visited⟩ | ⟨e, refused, visited⟩
    · have accepted : entry.path.refusal? = none := by
        cases refused : entry.path.refusal? with
        | none => rfl
        | some e => simp [resolve_refused refused] at reached
      have listable : Listable disk start root names := ⟨directory, placed.path ▸ accepted⟩
      have sorted := Disk.pairwise_sorted (tidy.nodup_children (List.prefix_append root names))
      have entries := yields_children sorted fun child member =>
        each reached directory child (List.mem_mergeSort.mp member)
      refine (Yields.enter visited rfl entries).congr fun found => ?_
      rw [foundBelow_directory listable]
      simp only [List.mem_mergeSort]
    · have closed : ¬ Listable disk start root names := by
        intro listable
        have accepted := listable.2
        rw [← placed.path, refused] at accepted
        cases accepted
      refine (Yields.enter visited rfl yields_nil).congr fun found => ?_
      rw [foundBelow_leaf closed]
      simp [no_file_of_directory directory]
  · have closed : ¬ Listable disk start root names := fun listable => directory listable.1
    rcases placed.visit_leaf directory with ⟨counted, visited⟩ | ⟨counted, visited⟩
    · refine (yields_file visited).congr fun found => ?_
      rw [foundBelow_leaf closed]
      simp [counted]
    · refine (Yields.enter visited rfl yields_nil).congr fun found => ?_
      rw [foundBelow_leaf closed]
      simp [counted]

private theorem Placed.yields (tidy : disk.TidyBelow root) (levels : Nat) {names : List Name}
    {entry : Pending}
    (deep : ∀ listed ∈ disk.entries, listed.1.length ≤ (root ++ names).length + levels)
    (placed : Placed disk start root names entry) :
    Yields disk start [entry] (FoundBelow disk start root names) := by
  induction levels generalizing names entry with
  | zero =>
    refine placed.yields_over tidy fun _ _ child member => ?_
    have bound := deep _ (Disk.mem_children.mp member)
    simp only [List.length_append, List.length_singleton] at bound
    omega
  | succ levels ih =>
    refine placed.yields_over tidy fun reached directory child member => ?_
    refine ih (fun listed here => ?_) (placed.child tidy reached directory member)
    have bound := deep listed here
    simp only [List.length_append, List.length_singleton] at bound ⊢
    omega

private theorem exists_depth (entries : List (Location × Node)) :
    ∃ depth, ∀ listed ∈ entries, listed.1.length ≤ depth := by
  induction entries with
  | nil => exact ⟨0, by simp⟩
  | cons first rest ih =>
    obtain ⟨depth, deep⟩ := ih
    refine ⟨max first.1.length depth, fun listed member => ?_⟩
    rcases List.mem_cons.mp member with rfl | later
    · exact Nat.le_max_left _ _
    · exact Nat.le_trans (deep listed later) (Nat.le_max_right _ _)

/-- A walk comes to its end, and the files that it finds are those that are found below its start,
in the strict order of their names. -/
theorem filesBelow_spec (tidy : disk.TidyBelow root)
    (placed : Placed disk start root [] ⟨start, .start⟩) :
    Ends disk (below start) ((below start).visits disk) ∧
      ∃ found : List (List Name), filesBelow disk start = found.map (·.foldl Path.join start) ∧
        found.Pairwise (· < ·) ∧ ∀ names, names ∈ found ↔ FoundBelow disk start root [] names := by
  obtain ⟨depth, deep⟩ := exists_depth disk.entries
  obtain ⟨visits, found, ends, files, ordered, members⟩ :=
    placed.yields tidy depth fun listed member =>
    Nat.le_trans (deep listed member) (Nat.le_add_left _ _)
  have all : (below start).visits disk = visits := by
    rw [visits_of_placed tidy placed (Nat.le_add_right _ visits.length)]
    exact ends.visitsWithin (Nat.le_add_left _ _)
  rw [filesBelow, all]
  exact ⟨ends, found, files, ordered, members⟩

end Walk

end TextArchive.File
