import TextArchive.File.Disk

/-!
Walking a tree for its regular files, one entry at a time. A directory is listed when it is entered,
its entries come in the order of their names, and links below the start are not entered; a link
counts as a file if it leads to one when it is reached.
-/

set_option autoImplicit false
set_option relaxedAutoImplicit false

namespace TextArchive.File

open TextArchive.Text.Utf8 (Bytes)

/-- What an entry was when its directory was listed. -/
inductive EntryKind where
  /-- The start of the walk, looked at only when it is reached. -/
  | start
  | regular
  | directory
  | link
  | other
deriving DecidableEq, Repr

def EntryKind.ofNode : Node → EntryKind
  | .file _ => .regular
  | .unreadable => .regular
  | .directory => .directory
  | .link _ => .link
  | .socket => .other
  | .device => .other

structure Pending where
  path : Path
  kind : EntryKind
deriving DecidableEq, Repr

/-- A walk under way: the entries still to be visited, next one first. -/
structure Walk where
  pending : List Pending
deriving DecidableEq, Repr

inductive Visit where
  | file (path : Path)
  /-- A directory that cannot be listed. -/
  | failed (path : Path) (error : FileError)
  | nothing
deriving DecidableEq, Repr

namespace Walk

def below (start : Path) : Walk :=
  ⟨[⟨start, .start⟩]⟩

def listing (disk : Disk) (directory : Path) : Except FileError (List Pending) :=
  match disk.resolve directory with
  | .error e => .error e
  | .ok location =>
    if disk.node? location = some .directory then
      .ok (((disk.children location).mergeSort fun a b => bytesLe a.1 b.1).map fun child =>
        ⟨directory.join child.1, EntryKind.ofNode child.2⟩)
    else .error .notADirectory

/-- Visit a directory: its entries are to be visited next. -/
def enter (disk : Disk) (directory : Path) : Visit × List Pending :=
  match listing disk directory with
  | .ok entries => (.nothing, entries)
  | .error e => (.failed directory e, [])

/-- Visit an entry: what it is, and which entries are to be visited next. -/
def visit (disk : Disk) (entry : Pending) : Visit × List Pending :=
  match entry.kind with
  | .start =>
    match disk.lookUp entry.path with
    | .error e => (.failed entry.path e, [])
    | .ok .directory => enter disk entry.path
    | .ok _ => (.nothing, [])
  | .regular => (.file entry.path, [])
  | .directory => enter disk entry.path
  | .link => (if disk.isFile entry.path then .file entry.path else .nothing, [])
  | .other => (.nothing, [])

def step? (disk : Disk) (walk : Walk) : Option (Visit × Walk) :=
  match walk.pending with
  | [] => none
  | entry :: rest =>
    let (found, entries) := visit disk entry
    some (found, ⟨entries ++ rest⟩)

/-- A number of visits that is enough to end the walk: what is below the pending entries is all
different. -/
def enough (disk : Disk) (walk : Walk) : Nat :=
  walk.pending.length + disk.entries.length + 1

/-- The visits of a walk over a tree that stays as it is, at most the given number. -/
def visitsWithin (disk : Disk) : Nat → Walk → List Visit
  | 0, _ => []
  | n + 1, walk =>
    match step? disk walk with
    | none => []
    | some (found, walk) => found :: visitsWithin disk n walk

def visits (disk : Disk) (walk : Walk) : List Visit :=
  visitsWithin disk (enough disk walk) walk

/-- Visit entries until the walk has found a number of files, at most the given number of visits.
The visits come with the walk that remains. -/
def advanceWithin (disk : Disk) : Nat → Nat → Walk → List Visit × Walk
  | _, 0, walk => ([], walk)
  | 0, _ + 1, walk => ([], walk)
  | n + 1, files + 1, walk =>
    match step? disk walk with
    | none => ([], walk)
    | some (found, walk) =>
      let wanted :=
        match found with
        | .file _ => files
        | _ => files + 1
      let (rest, walk) := advanceWithin disk n wanted walk
      (found :: rest, walk)

def advance (disk : Disk) (files : Nat) (walk : Walk) : List Visit × Walk :=
  advanceWithin disk (enough disk walk) files walk

end Walk

def Visit.file? : Visit → Option Path
  | .file path => some path
  | _ => none

end TextArchive.File
