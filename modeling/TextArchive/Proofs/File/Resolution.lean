import TextArchive.File.Disk

/-!
Resolution of paths, one segment at a time: where the walk along a path gets to by its first
segments, it goes on from there by the others. So an entry of a directory is reached by a path of
the directory with the name of the entry joined.
-/

set_option autoImplicit false
set_option relaxedAutoImplicit false

namespace TextArchive.File

/-- What a segment of a path can be: it is not empty and has no slash. -/
structure IsSegment (name : Name) : Prop where
  filled : name ≠ []
  whole : slash ∉ name

structure ProperName (name : Name) : Prop extends IsSegment name where
  not_here : name ≠ here
  not_above : name ≠ above
  short : name.length ≤ Disk.longestName

instance (name : Name) : Decidable (ProperName name) :=
  decidable_of_iff
    (name ≠ [] ∧ slash ∉ name ∧ name ≠ here ∧ name ≠ above ∧ name.length ≤ Disk.longestName)
    ⟨fun ⟨filled, whole, not_here, not_above, short⟩ => ⟨⟨filled, whole⟩,
      not_here, not_above, short⟩,
      fun h => ⟨h.filled, h.whole, h.not_here, h.not_above, h.short⟩⟩

namespace Path

section Join

variable {p : Path} {name : Name}

theorem segments_join (filled : p.bytes ≠ []) (segment : IsSegment name) :
    (p.join name).segments = p.segments ++ [name] := by
  have alone : Text.Split.words (· = slash) name = [name] :=
    Text.Split.words_of_no_separator (fun a member => by
      simpa using fun h : a = slash => segment.whole (h ▸ member)) segment.filled
  have cut : ∀ before after : List UInt8, Text.Split.words (· = slash) (before ++ slash :: after) =
      Text.Split.words (· = slash) before ++ Text.Split.words (· = slash) after :=
    Text.Split.words_append_separator (by decide)
  by_cases ends : p.endsInSlash = true
  · obtain ⟨start, bytes⟩ : ∃ start, p.bytes = start ++ [slash] := by
      have last : p.bytes.getLast? = some slash := by simpa [endsInSlash] using ends
      exact List.getLast?_eq_some_iff.mp last
    have joined : (p.join name).bytes = start ++ slash :: name := by
      simp [join, ends, bytes]
    rw [segments, joined, cut, alone, segments, bytes, cut]
    simp [Text.Split.words, Text.Split.pieces]
  · have joined : (p.join name).bytes = p.bytes ++ slash :: name := by
      simp [join, filled, ends]
    rw [segments, joined, cut, alone, segments]

theorem endsInSlash_join (segment : IsSegment name) : (p.join name).endsInSlash = false := by
  rcases List.eq_nil_or_concat name with empty | ⟨start, last, rfl⟩
  · exact absurd empty segment.filled
  · have other : last ≠ slash := fun h => segment.whole (by simp [h])
    unfold join
    split
    · simpa [endsInSlash] using other
    · split <;> simpa [endsInSlash, List.getLast?_append, List.getLast?_cons] using other

theorem isAbsolute_join (filled : p.bytes ≠ []) : (p.join name).isAbsolute = p.isAbsolute := by
  obtain ⟨a, rest, bytes⟩ := List.exists_cons_of_ne_nil filled
  simp only [join, isAbsolute]
  split
  · simp_all
  · split <;> simp [bytes]

end Join

/-- Why a path is refused before any file is looked at. -/
def refusal? (p : Path) : Option FileError :=
  if p.bytes.isEmpty then some .notFound
  else if p.bytes.contains 0 then some .zeroByte
  else if Disk.pathLimit ≤ p.bytes.length then some .nameTooLong
  else none

end Path

namespace Disk

variable {disk : Disk}

theorem locate_eq (last : LastSegment) (p : Path) :
    disk.locate last p = p.refusal?.elim
      (disk.descend last linkLimit (if p.isAbsolute then [] else disk.workingDirectory) (steps p.bytes)) .error := by
  unfold locate Path.refusal?
  split
  · rfl
  split
  · rfl
  split <;> rfl

inductive Turn where
  | refused (e : FileError)
  | missing (next : Location)
  | link (next : Location) (target : Text.Utf8.Bytes)
  | on (next : Location)

def turn (disk : Disk) (place : Location) (name : Name) : Turn :=
  if disk.node? place ≠ some .directory then .refused .notADirectory
  else if name = here then .on place
  else if name = above then .on place.dropLast
  else if longestName < name.length then .refused .nameTooLong
  else
    match disk.node? (place ++ [name]) with
    | none => .missing (place ++ [name])
    | some (.link target) => .link (place ++ [name]) target
    | some _ => .on (place ++ [name])

theorem turn_entry {l : Location} {name : Name} {node : Node}
    (directory : disk.node? l = some .directory) (proper : ProperName name)
    (there : disk.node? (l ++ [name]) = some node) (no_link : ∀ target, node ≠ .link target) :
    disk.turn l name = .on (l ++ [name]) := by
  have fits : ¬ longestName < name.length := Nat.not_lt.mpr proper.short
  cases node with
  | link target => exact absurd rfl (no_link target)
  | _ => simp [turn, directory, proper.not_here, proper.not_above, fits, there]

theorem turn_above {l : Location} (directory : disk.node? l = some .directory) :
    disk.turn l above = .on l.dropLast := by
  have other : above ≠ here := by decide
  simp [turn, directory, other]

def linkBase (place : Location) (target : Text.Utf8.Bytes) : Location :=
  if target.head? = some slash then [] else place

@[simp] theorem descend_nil (last : LastSegment) (links : Nat) (place : Location) :
    disk.descend last links place [] = .ok place := by
  rw [descend]

theorem descend_cons (last : LastSegment) (links : Nat) (place : Location) (name : Name)
    (rest : List Name) :
    disk.descend last links place (name :: rest) =
      match disk.turn place name, links with
      | .refused e, _ => .error e
      | .missing next, _ => if rest.isEmpty && last.mayBeMissing then .ok next else .error .notFound
      | .link next target, links =>
        if rest.isEmpty && !last.follow then .ok next
        else
          match links with
          | 0 => .error .tooManyLinks
          | links + 1 => disk.descend last links (linkBase place target) (steps target ++ rest)
      | .on next, links => disk.descend last links next rest := by
  rw [descend]
  unfold turn
  split
  · rfl
  split
  · rfl
  split
  · rfl
  split
  · rfl
  simp only
  rcases disk.node? (place ++ [name]) with _ | node
  · rfl
  · cases node with
    | link target =>
      simp only
      split
      · rfl
      · cases links <;> rfl
    | _ => rfl

@[simp] theorem asked_nil (links : Nat) (place : Location) : disk.asked links place [] = [] := by
  rw [asked]

theorem asked_cons (links : Nat) (place : Location) (name : Name) (rest : List Name) :
    disk.asked links place (name :: rest) =
      match disk.turn place name, links with
      | .refused _, _ => []
      | .missing _, _ => []
      | .link next target, links =>
        .ofLocation next ::
          match links with
          | 0 => []
          | links + 1 => disk.asked links (linkBase place target) (steps target ++ rest)
      | .on next, links =>
        if name = here ∨ name = above then disk.asked links next rest
        else
        (if asksForDirectory rest then ⟨(Path.ofLocation next).bytes ++ [slash]⟩ else .ofLocation next) ::
          disk.asked links next rest := by
  rw [asked]
  unfold turn
  split
  · rfl
  split
  · rename_i stays
    simp [stays]
  split
  · rename_i rises
    simp [rises]
  split
  · rfl
  rename_i not_here not_above _
  simp only [not_here, not_above, or_self, if_false]
  rcases disk.node? (place ++ [name]) with _ | node
  · rfl
  · cases node with
    | link target => cases links <;> rfl
    | _ => rfl

/-- A walk ends, as every segment is left behind or replaced by those of one of the links that may
still be followed. -/
theorem descend_induction (disk : Disk) {motive : Nat → Location → List Name → Prop}
    (nil : ∀ links place, motive links place [])
    (cons : ∀ links place name rest,
      (∀ next, disk.turn place name = .on next → motive links next rest) →
      (∀ fewer next target, links = fewer + 1 → disk.turn place name = .link next target →
        motive fewer (linkBase place target) (steps target ++ rest)) →
      motive links place (name :: rest)) (links : Nat) (place : Location) (segments : List Name) :
    motive links place segments := by
  induction links using Nat.strongRecOn generalizing place segments with
  | _ links fewer =>
    induction segments generalizing place with
    | nil => exact nil links place
    | cons name rest ih =>
      refine cons links place name rest (fun next _ => ih next) ?_
      rintro n next target rfl -
      exact fewer n (Nat.lt_succ_self n) _ _

theorem descend_mayBeMissing {links : Nat} {place l : Location} {segments : List Name}
    (reached : disk.descend ⟨true, false⟩ links place segments = .ok l) :
    disk.descend ⟨true, true⟩ links place segments = .ok l := by
  induction links, place, segments using descend_induction disk with
  | nil links place => simpa using reached
  | cons links place name rest on link =>
    rw [descend_cons] at reached ⊢
    cases turned : disk.turn place name with
    | refused e => simp [turned] at reached
    | missing next => simp [turned] at reached
    | link next target =>
      cases links with
      | zero => simp [turned] at reached
      | succ fewer =>
        simp only [turned, Bool.not_true, Bool.and_false, Bool.false_eq_true, if_false] at reached ⊢
        exact link fewer next target rfl turned reached
    | on next =>
      simp only [turned] at reached ⊢
      exact on next turned reached

theorem descend_append {links : Nat} {place l : Location} {segments : List Name}
    (reached : disk.descend ⟨true, false⟩ links place segments = .ok l) :
    ∃ left, ∀ last name rest, disk.descend last links place (segments ++ name :: rest) =
      disk.descend last left l (name :: rest) := by
  induction links, place, segments using descend_induction disk with
  | nil links place =>
    have here : place = l := by simpa using reached
    exact ⟨links, fun last name rest => by rw [here]; rfl⟩
  | cons links place segment segments on link =>
    rw [descend_cons] at reached
    cases turned : disk.turn place segment with
    | refused e => simp [turned] at reached
    | missing next => simp [turned] at reached
    | link next target =>
      cases links with
      | zero => simp [turned] at reached
      | succ fewer =>
        simp only [turned, Bool.not_true, Bool.and_false, Bool.false_eq_true, if_false] at reached
        obtain ⟨left, same⟩ := link fewer next target rfl turned reached
        refine ⟨left, fun last name rest => ?_⟩
        rw [← same last name rest, List.cons_append, descend_cons]
        simp [turned]
    | on next =>
      simp only [turned] at reached
      obtain ⟨left, same⟩ := on next turned reached
      refine ⟨left, fun last name rest => ?_⟩
      rw [← same last name rest, List.cons_append, descend_cons]
      simp [turned]

private theorem descend_start {links : Nat} {place l : Location} {segments : List Name}
    (more : List Name)
    (reached : disk.descend ⟨true, false⟩ links place (segments ++ more) = .ok l) :
    ∃ before, disk.descend ⟨true, false⟩ links place segments = .ok before := by
  induction links, place, segments using descend_induction disk with
  | nil links place => exact ⟨place, descend_nil _ _ _⟩
  | cons links place segment segments on link =>
    rw [List.cons_append, descend_cons] at reached
    rw [descend_cons]
    cases turned : disk.turn place segment with
    | refused e => simp [turned] at reached
    | missing next => simp [turned] at reached
    | link next target =>
      cases links with
      | zero => simp [turned] at reached
      | succ fewer =>
        simp only [turned, Bool.not_true, Bool.and_false, Bool.false_eq_true, if_false,
          ← List.append_assoc]
          at reached ⊢
        exact link fewer next target rfl turned reached
    | on next =>
      simp only [turned] at reached ⊢
      exact on next turned reached

section Join

variable {p : Path} {l : Location} {name : Name}

theorem filled_of_resolve (reached : disk.resolve p = .ok l) : p.bytes ≠ [] := by
  intro empty
  simp [resolve, locate, empty] at reached

theorem descend_of_resolve (reached : disk.resolve p = .ok l) :
    p.refusal? = none ∧ disk.descend ⟨true, false⟩ linkLimit (disk.startOf p)
    (steps p.bytes) = .ok l := by
  rw [resolve, locate_eq] at reached
  cases accepted : p.refusal? with
  | some e => simp [accepted] at reached
  | none =>
    simp only [accepted, Option.elim_none] at reached
    exact ⟨rfl, reached⟩

private theorem descend_join (reached : disk.resolve p = .ok l) (proper : ProperName name)
    (last : LastSegment) :
    ∃ left, disk.descend last linkLimit (disk.startOf (p.join name)) (steps (p.join name).bytes) =
      disk.descend last left l [name] := by
  have filled := filled_of_resolve reached
  obtain ⟨-, reached⟩ := descend_of_resolve reached
  obtain ⟨before, start⟩ := descend_start _ reached
  obtain ⟨left, same⟩ := descend_append start
  have arrived : before = l := by
    by_cases ends : p.endsInSlash = true
    · simp only [steps, ends, if_true, same, descend_cons] at reached
      by_cases directory : disk.node? before = some .directory
      · simpa [turn, directory] using reached
      · simp [turn, directory] at reached
    · simp only [steps, ends, Bool.false_eq_true, if_false, List.append_nil, start] at reached
      simpa using reached
  refine ⟨left, ?_⟩
  rw [startOf, Path.isAbsolute_join filled, steps, Path.endsInSlash_join proper.toIsSegment,
    Path.segments_join filled proper.toIsSegment, ← arrived]
  simp only [Bool.false_eq_true, if_false, List.append_nil]
  exact same last name []

/-- An entry of a directory that is no link is where its name joined to a path of the directory
leads to. -/
theorem descend_entry (reached : disk.resolve p = .ok l)
    (directory : disk.node? l = some .directory) (proper : ProperName name) {node : Node}
    (there : disk.node? (l ++ [name]) = some node) (no_link : ∀ target, node ≠ .link target)
    (last : LastSegment) :
    disk.descend last linkLimit (disk.startOf (p.join name)) (steps (p.join name).bytes) =
    .ok (l ++ [name]) := by
  obtain ⟨left, walked⟩ := descend_join reached proper last
  rw [walked, descend_cons, turn_entry directory proper there no_link]
  exact descend_nil _ _ _

theorem locate_entry (reached : disk.resolve p = .ok l) (directory : disk.node? l = some .directory)
    (proper : ProperName name) {node : Node} (there : disk.node? (l ++ [name]) = some node)
    (no_link : ∀ target, node ≠ .link target) (last : LastSegment) :
    disk.locate last (p.join name) = (p.join name).refusal?.elim (.ok (l ++ [name])) .error := by
  rw [locate_eq, ← descend_entry reached directory proper there no_link last]
  rfl

end Join

theorem locate_mayBeMissing {p : Path} {l : Location} (reached : disk.resolve p = .ok l) :
    disk.locate ⟨true, true⟩ p = .ok l := by
  rw [resolve, locate_eq] at reached
  rw [locate_eq]
  cases accepted : p.refusal? with
  | some e => simp [accepted] at reached
  | none =>
    simp only [accepted, Option.elim_none] at reached ⊢
    exact descend_mayBeMissing reached

end Disk

end TextArchive.File
