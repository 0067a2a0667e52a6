import TextArchive.Store.Storage

/-!
Where the path of a database leads, as a relation with one rule for each kind of step. A walk along
segments comes to a place just if they lead there, so that what holds of walks is proved step by
step.
-/

set_option autoImplicit false
set_option relaxedAutoImplicit false

namespace TextArchive.Store.Storage

open TextArchive.File (Disk Location Name Path)

variable {disk : Disk} {links : Nat} {l place : Location} {name : Name} {segments : List Name}

/-- Whether a walk can go over a name at a place. -/
structure Passable (disk : Disk) (l : Location) (name : Name) : Prop where
  moves : name ≠ File.here
  down : name ≠ File.above
  short : name.length ≤ Disk.longestName
  near : (Path.ofLocation (l ++ [name])).bytes.length < longestPlace
  through : (disk.node? l).all (· = .directory) = true

/-- Where segments lead from a place, when so many links may be followed. -/
inductive Leads (disk : Disk) : Nat → Location → List Name → Location → Prop
  | arrived {links : Nat} {l : Location} : Leads disk links l [] l
  | stays {links : Nat} {l place : Location} {rest : List Name}
      (on : Leads disk links l rest place) : Leads disk links l (File.here :: rest) place
  | rises {links : Nat} {l place : Location} {rest : List Name}
      (on : Leads disk links l.dropLast rest place) : Leads disk links l (File.above :: rest) place
  | link {links : Nat} {l place : Location} {name : Name} {rest : List Name}
      {target : Text.Utf8.Bytes} (passable : Passable disk l name)
      (there : disk.node? (l ++ [name]) = some (.link target))
      (on : Leads disk links (if target.head? = some File.slash then [] else l)
        ((File.Path.mk target).segments ++ rest) place) : Leads disk (links + 1) l (name :: rest) place
  | down {links : Nat} {l place : Location} {name : Name} {rest : List Name}
      (passable : Passable disk l name)
      (no_link : ∀ target, disk.node? (l ++ [name]) ≠ some (.link target))
      (on : Leads disk links (l ++ [name]) rest place) : Leads disk links l (name :: rest) place

private theorem Passable.fits (passable : Passable disk l name) :
    ¬ (decide (Disk.longestName < name.length) ||
      decide (longestPlace ≤ (Path.ofLocation (l ++ [name])).bytes.length)) = true := by
  simp only [Bool.or_eq_true, decide_eq_true_eq, not_or, Nat.not_lt, Nat.not_le]
  exact ⟨passable.short, passable.near⟩

private theorem Passable.follow_link (passable : Passable disk l name) (rest : List Name)
    {target : Text.Utf8.Bytes} (there : disk.node? (l ++ [name]) = some (.link target)) :
    follow disk (links + 1) l (name :: rest) =
      follow disk links (if target.head? = some File.slash then [] else l)
        ((File.Path.mk target).segments ++ rest) := by
  rw [follow, if_neg passable.moves, if_neg passable.down]
  simp only
  rw [if_neg passable.fits, if_neg (by rw [passable.through]; decide), there]

private theorem Passable.follow_last_link (passable : Passable disk l name) (rest : List Name)
    {target : Text.Utf8.Bytes} (there : disk.node? (l ++ [name]) = some (.link target)) :
    follow disk 0 l (name :: rest) = none := by
  rw [follow, if_neg passable.moves, if_neg passable.down]
  simp only
  rw [if_neg passable.fits, if_neg (by rw [passable.through]; decide), there]

private theorem Passable.follow_down (passable : Passable disk l name) (rest : List Name)
    (no_link : ∀ target, disk.node? (l ++ [name]) ≠ some (.link target)) :
    follow disk links l (name :: rest) = follow disk links (l ++ [name]) rest := by
  rw [follow, if_neg passable.moves, if_neg passable.down]
  simp only
  rw [if_neg passable.fits, if_neg (by rw [passable.through]; decide)]

private theorem passable_of_follow {rest : List Name} (moves : name ≠ File.here)
    (down : name ≠ File.above) (led : follow disk links l (name :: rest) = some place) :
    Passable disk l name := by
  rw [follow, if_neg moves, if_neg down] at led
  simp only at led
  split at led
  · cases led
  rename_i short
  split at led
  · cases led
  rename_i passed
  simp only [Bool.or_eq_true, decide_eq_true_eq, not_or, Nat.not_lt, Nat.not_le] at short
  exact ⟨moves, down, short.1, short.2, by simpa using passed⟩

private theorem leads_of_follow (led : follow disk links l segments = some place) :
    Leads disk links l segments place := by
  induction links using Nat.strongRecOn generalizing l segments with
  | _ links fewer =>
    induction segments generalizing l with
    | nil =>
      rw [follow] at led
      cases led
      exact .arrived
    | cons name rest ih =>
      by_cases stays : name = File.here
      · rw [follow, if_pos stays] at led
        exact stays ▸ .stays (ih led)
      by_cases rises : name = File.above
      · rw [follow, if_neg stays, if_pos rises] at led
        exact rises ▸ .rises (ih led)
      have passable := passable_of_follow stays rises led
      by_cases linked : ∃ target, disk.node? (l ++ [name]) = some (.link target)
      · obtain ⟨target, there⟩ := linked
        cases links with
        | zero =>
          rw [passable.follow_last_link rest there] at led
          cases led
        | succ links =>
          rw [passable.follow_link rest there] at led
          exact .link passable there (fewer links (Nat.lt_succ_self _) led)
      · have no_link := not_exists.mp linked
        rw [passable.follow_down rest no_link] at led
        exact .down passable no_link (ih led)

private theorem Leads.follow_eq (leads : Leads disk links l segments place) :
    follow disk links l segments = some place := by
  induction leads with
  | arrived => rw [follow]
  | stays _ ih => rw [follow, if_pos rfl, ih]
  | rises _ ih => rw [follow, if_neg (by decide), if_pos rfl, ih]
  | link passable there _ ih => rw [passable.follow_link _ there, ih]
  | down passable no_link _ ih => rw [passable.follow_down _ no_link, ih]

theorem follow_eq_some_iff : follow disk links l segments = some place ↔
    Leads disk links l segments place :=
  ⟨leads_of_follow, Leads.follow_eq⟩

theorem databasePlace?_eq_some_iff {path : Path} : databasePlace? disk path = some place ↔
    Leads disk linkLimit (if path.isAbsolute then [] else disk.workingDirectory) path.segments place ∧
      (Path.ofLocation place).bytes.length < longestDatabasePlace ∧
      disk.node? place.dropLast = some .directory := by
  unfold databasePlace?
  rw [← follow_eq_some_iff]
  cases follow disk linkLimit (if path.isAbsolute then [] else disk.workingDirectory)
    path.segments with
  | none => simp
  | some here =>
    simp only [Option.some.injEq]
    split
    · rename_i long
      refine ⟨nofun, ?_⟩
      rintro ⟨rfl, short, -⟩
      omega
    split
    · rename_i short directory
      refine ⟨?_, fun leads => congrArg some leads.1⟩
      rintro ⟨⟩
      exact ⟨rfl, Nat.lt_of_not_le short, directory⟩
    · rename_i astray
      refine ⟨nofun, ?_⟩
      rintro ⟨rfl, -, directory⟩
      exact absurd directory astray

end TextArchive.Store.Storage
