import TextArchive.Proofs.File.Resolution

/-!
Trees that agree but for a few places at which nothing but regular files can stand. Whatever a path
leads to in one of them it leads to in the other, unless it leads to one of these places.
-/

set_option autoImplicit false
set_option relaxedAutoImplicit false

namespace TextArchive.File.Disk

/-- Whether nothing but a regular file may stand at a place. -/
def Bare (disk : Disk) (place : Location) : Prop :=
  ∀ node, disk.node? place = some node → node.isRegular = true

private theorem Bare.turn {disk : Disk} {place : Location} {name : Name}
    (bare : disk.Bare (place ++ [name])) (directory : disk.node? place = some .directory)
    (not_here : name ≠ here) (not_above : name ≠ above) (short : ¬ longestName < name.length) :
    disk.turn place name = .missing (place ++ [name]) ∨
    disk.turn place name = .on (place ++ [name]) := by
  simp only [Disk.turn, directory, ne_eq, not_true, not_here, not_above, short, if_false]
  cases there : disk.node? (place ++ [name]) with
  | none => exact .inl rfl
  | some node =>
    cases node with
    | link target => simpa [Node.isRegular] using bare _ there
    | _ => exact .inr rfl

/-- Trees that agree but for regular files at some places. -/
structure Agree (places : List Location) (d d' : Disk) : Prop where
  workingDirectory : d'.workingDirectory = d.workingDirectory
  entries : ∀ keep : Location → Bool, (∀ place ∈ places, keep place = false) →
    d'.entries.filter (keep ·.1) = d.entries.filter (keep ·.1)
  nodes : ∀ place ∈ places, d'.node? place = d.node? place ∨ d.Bare place ∧ d'.Bare place

namespace Agree

variable {places : List Location} {d d' d'' : Disk}

theorem refl (places : List Location) (d : Disk) : Agree places d d :=
  ⟨rfl, fun _ _ => rfl, fun _ _ => .inl rfl⟩

theorem symm (agree : Agree places d d') : Agree places d' d :=
  ⟨agree.workingDirectory.symm, fun keep none => (agree.entries keep none).symm,
    fun place member => (agree.nodes place member).imp Eq.symm And.symm⟩

theorem trans (first : Agree places d d') (second : Agree places d' d'') : Agree places d d'' where
  workingDirectory := second.workingDirectory.trans first.workingDirectory
  entries keep none := (second.entries keep none).trans (first.entries keep none)
  nodes := by
    intro place member
    rcases first.nodes place member with same | ⟨bare, bare'⟩
    · rcases second.nodes place member with same' | ⟨bare', bare''⟩
      · exact .inl (same'.trans same)
      · exact .inr ⟨fun node there => bare' node (same.trans there), bare''⟩
    · rcases second.nodes place member with same' | ⟨-, bare''⟩
      · exact .inr ⟨bare, fun node there => bare' node (same'.symm.trans there)⟩
      · exact .inr ⟨bare, bare''⟩

variable (agree : Agree places d d')
include agree

theorem node? (place : Location) :
    d'.node? place = d.node? place ∨ place ∈ places ∧ d.Bare place ∧ d'.Bare place := by
  by_cases member : place ∈ places
  · exact (agree.nodes place member).imp_right fun bare => ⟨member, bare⟩
  · left
    have same := agree.entries (fun l => l = place) fun l here => by
      simpa using fun equal : l = place => member (equal ▸ here)
    unfold Disk.node?
    split
    · rfl
    · rw [← List.head?_filter, ← List.head?_filter, same]

private theorem turn (place : Location) (name : Name) :
    d'.turn place name = d.turn place name ∨
      ∃ next ∈ places, d.Bare next ∧ d'.Bare next ∧
      (d.turn place name = .missing next ∨ d.turn place name = .on next) ∧
        (d'.turn place name = .missing next ∨ d'.turn place name = .on next) := by
  have directory : d'.node? place = some .directory ↔ d.node? place = some .directory := by
    rcases agree.node? place with same | ⟨-, bare, bare'⟩
    · rw [same]
    · have file : d.node? place ≠ some .directory := fun h =>
        by simpa [Node.isRegular] using bare _ h
      have file' : d'.node? place ≠ some .directory := fun h =>
        by simpa [Node.isRegular] using bare' _ h
      simp [file, file']
  rcases agree.node? (place ++ [name]) with same | ⟨member, bare, bare'⟩
  · left
    simp only [Disk.turn, ne_eq, directory, same]
  by_cases stopped : d.node? place = some .directory
  · by_cases stays : name = here
    · left
      simp [Disk.turn, directory, stays]
    by_cases rises : name = above
    · left
      simp [Disk.turn, directory, rises]
    by_cases long : longestName < name.length
    · left
      simp [Disk.turn, directory, stays, rises, long]
    · exact .inr ⟨_, member, bare, bare', bare.turn stopped stays rises long,
        bare'.turn (directory.mpr stopped) stays rises long⟩
  · left
    simp [Disk.turn, directory, stopped]

private theorem descend (links : Nat) (place : Location) (segments : List Name) :
    ((∀ missing, d'.descend ⟨true, missing⟩ links place segments = d.descend ⟨true, missing⟩ links place segments) ∧
      d'.asked links place segments = d.asked links place segments) ∨
    (∃ l ∈ places, d.Bare l ∧ d.descend ⟨true, true⟩ links place segments = .ok l) ∨
    ∀ missing, (∃ e, d.descend ⟨true, missing⟩ links place segments = .error e) ∧
      ∃ e, d'.descend ⟨true, missing⟩ links place segments = .error e := by
  induction links, place, segments using descend_induction d with
  | nil links place => exact .inl ⟨fun missing => by simp, by simp⟩
  | cons links place name rest on link =>
    simp only [descend_cons, asked_cons]
    rcases agree.turn place name with same | ⟨next, member, bare, bare', turned, turned'⟩
    · rw [same]
      cases turned : d.turn place name with
      | refused e => simp
      | missing next => simp
      | link next target =>
        cases links with
        | zero => simp
        | succ fewer => simpa using link fewer next target rfl turned
      | on next =>
        rcases on next turned with ⟨ends, entries⟩ | other
        · exact .inl ⟨ends, by simp only [entries]⟩
        · exact .inr other
    · right
      cases rest with
      | nil =>
        left
        refine ⟨next, member, bare, ?_⟩
        rcases turned with turned | turned <;> simp [turned]
      | cons after rest =>
        right
        intro missing
        have blocked : ∀ {disk : Disk}, disk.Bare next → ∀ links,
            disk.descend ⟨true, missing⟩ links next (after :: rest) = .error .notADirectory := by
          intro disk bare links
          have file : disk.node? next ≠ some .directory := fun h =>
            by simpa [Node.isRegular] using bare _ h
          rw [descend_cons]
          simp [Disk.turn, file]
        constructor
        · rcases turned with turned | turned <;> simp [turned, blocked bare]
        · rcases turned' with turned | turned <;> simp [turned, blocked bare']

end Agree

theorem isDirectory_iff {disk : Disk} {p : Path} :
    disk.isDirectory p = true ↔ ∃ l, disk.resolve p = .ok l ∧ disk.node? l = some .directory := by
  unfold isDirectory lookUp
  cases disk.resolve p with
  | error e => simp
  | ok l => cases there : disk.node? l with
    | none => simp [there]
    | some node => cases node <;> simp [there]

theorem Agree.mono {places more : List Location} {d d' : Disk} (agree : Agree places d d')
    (within : places ⊆ more) :
    Agree more d d' where
  workingDirectory := agree.workingDirectory
  entries keep none := agree.entries keep fun place member => none place (within member)
  nodes place _ := (agree.node? place).imp_right And.right

namespace Agree

variable {places : List Location} {d d' : Disk} (agree : Agree places d d')
include agree

/-- A path leads to the same in both trees, unless it leads to a place with nothing but a regular
file. -/
theorem locate (p : Path) :
    (∀ missing, d'.locate ⟨true, missing⟩ p = d.locate ⟨true, missing⟩ p) ∨
    (∃ l ∈ places, d.Bare l ∧ d.locate ⟨true, true⟩ p = .ok l) ∨
    ∀ missing, (∃ e, d.locate ⟨true, missing⟩ p = .error e) ∧
    ∃ e, d'.locate ⟨true, missing⟩ p = .error e := by
  simp only [locate_eq]
  cases p.refusal? with
  | some e => simp
  | none =>
    simp only [Option.elim_none, agree.workingDirectory]
    exact (agree.descend linkLimit _ _).imp_left And.left

theorem canonical? {p : Path}
    (clear : ∀ l ∈ places, d.descend ⟨true, true⟩ linkLimit (d.startOf p) (steps p.bytes) ≠ .ok l) :
    d'.canonical? p = d.canonical? p := by
  have start : d'.startOf p = d.startOf p := by simp only [startOf, agree.workingDirectory]
  unfold Disk.canonical? walk
  rw [start]
  rcases agree.descend linkLimit (d.startOf p) (steps p.bytes) with ⟨ends, entries⟩ |
    ⟨l, member, -, leads⟩ | failed
  · simp only [ends false, entries]
  · exact absurd leads (clear l member)
  · obtain ⟨⟨e, error⟩, e', error'⟩ := failed false
    have none : ∀ e : FileError, ((if p.bytes.isEmpty then Except.error FileError.notFound
        else if p.bytes.contains 0 then .error .zeroByte else .error
          e) : Except FileError Location).toOption = none := by
      intro e
      split
      · rfl
      split <;> rfl
    simp only [error, error', none, Option.map_none, ite_self]

private theorem resolve_of_not_bare {p : Path} {l : Location} (reached : d.resolve p = .ok l)
    (other : ¬ d.Bare l) :
    d'.resolve p = .ok l ∧ d'.node? l = d.node? l := by
  constructor
  · rcases agree.locate p with same | ⟨l', -, bare, located⟩ | failed
    · rw [resolve, same]
      exact reached
    · have equal : l = l' := by simpa [locate_mayBeMissing reached] using located
      exact absurd (equal ▸ bare) other
    · obtain ⟨⟨e, failed⟩, -⟩ := failed false
      rw [resolve, failed] at reached
      cases reached
  · rcases agree.node? l with same | ⟨-, bare, -⟩
    · exact same
    · exact absurd bare other

theorem resolve_of_directory {p : Path} {l : Location} (reached : d.resolve p = .ok l)
    (directory : d.node? l = some .directory) :
    d'.resolve p = .ok l ∧ d'.node? l = some .directory := by
  have other : ¬ d.Bare l := fun bare => by simpa [Node.isRegular] using bare _ directory
  obtain ⟨resolved, same⟩ := agree.resolve_of_not_bare reached other
  exact ⟨resolved, same.trans directory⟩

theorem isDirectory (p : Path) : d'.isDirectory p = d.isDirectory p := by
  refine Bool.eq_iff_iff.mpr ?_
  rw [isDirectory_iff, isDirectory_iff]
  constructor
  · rintro ⟨l, reached, directory⟩
    exact ⟨l, agree.symm.resolve_of_directory reached directory⟩
  · rintro ⟨l, reached, directory⟩
    exact ⟨l, agree.resolve_of_directory reached directory⟩

/-- A path that leads to none of the places leads to the same in both trees, or to no file in
either. -/
theorem lookUp {p : Path} (clear : ∀ l ∈ places, d.locate ⟨true, true⟩ p ≠ .ok l) :
    (d'.resolve p = d.resolve p ∧ d'.lookUp p = d.lookUp p) ∨
      ((∃ e, d.lookUp p = .error e) ∧ ∃ e, d'.lookUp p = .error e) := by
  rcases agree.locate p with same | ⟨l, member, -, located⟩ | failed
  · have resolved : d'.resolve p = d.resolve p := same false
    refine .inl ⟨resolved, ?_⟩
    cases reached : d.resolve p with
    | error e => simp only [Disk.lookUp, resolved, reached]
    | ok l =>
      rcases agree.node? l with there | ⟨member, -, -⟩
      · simp only [Disk.lookUp, resolved, reached, there]
      · exact absurd (locate_mayBeMissing reached) (clear l member)
  · exact absurd located (clear l member)
  · obtain ⟨⟨e, error⟩, e', error'⟩ := failed false
    exact .inr ⟨⟨e, by simp only [Disk.lookUp, resolve, error]⟩, e',
      by simp only [Disk.lookUp, resolve, error']⟩

end Agree

end TextArchive.File.Disk
