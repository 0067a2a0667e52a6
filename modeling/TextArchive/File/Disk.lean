import TextArchive.File.Error
import TextArchive.File.Path

/-!
The tree of files, kept as a list of places with what stands there, and the resolution of paths in
it: symbolic links are followed, going up leads to the directory above the place reached, and at
most forty links are followed. There are no permissions: every directory can be walked over and
listed, and changed by whoever wants to; only for files there is one kind that cannot be read.
-/

set_option autoImplicit false
set_option relaxedAutoImplicit false

namespace TextArchive.File

open TextArchive.Text.Utf8 (Bytes)

/-- What a regular file holds: bytes, or a database under a key. -/
inductive Content where
  | bytes (content : Bytes)
  | stored (key : Nat)
deriving DecidableEq, Repr

inductive Node where
  | file (content : Content)
  | directory
  | link (target : Bytes)
  | socket
  /-- A device that is always at its end. -/
  | device
  /-- A regular file whose bytes cannot be read. -/
  | unreadable
deriving DecidableEq, Repr

def Node.isRegular : Node → Bool
  | .file _ => true
  | .unreadable => true
  | _ => false

/-- The bytes with which the file of a database starts. -/
def databaseHeader : Bytes :=
  Text.Utf8.ofString "SQLite format 3" ++ [0]

/-- The bytes of what a regular file holds; of a database only its header counts as readable. -/
def Content.readable : Content → Bytes
  | .bytes content => content
  | .stored _ => databaseHeader

/-- A tree of files and the directory where relative paths start. -/
structure Disk where
  entries : List (Location × Node)
  workingDirectory : Location
deriving Repr

namespace Disk

/-- What stands at a place. The top directory is always there. -/
def node? (disk : Disk) (location : Location) : Option Node :=
  if location.isEmpty then some .directory
  else (disk.entries.find? (·.1 = location)).map (·.2)

def longestName : Nat := 255

/-- Paths of this many bytes and more are refused. -/
def pathLimit : Nat := 4096

/-- How many links one resolution follows. -/
def linkLimit : Nat := 40

/-- The segments to walk for a path; a final slash asks for a directory. -/
def steps (p : Bytes) : List Name :=
  (Path.mk p).segments ++ (if (Path.mk p).endsInSlash then [File.here] else [])

/-- Whether a last segment that is a link is followed, and whether it may be missing. -/
structure LastSegment where
  follow : Bool
  mayBeMissing : Bool

/-- Walk segments from a place, with a number of links left to follow. -/
def descend (disk : Disk) (last : LastSegment) (links : Nat) (place : Location)
    (segments : List Name) :
    Except FileError Location :=
  match segments with
  | [] => .ok place
  | name :: rest =>
    if disk.node? place ≠ some .directory then .error .notADirectory
    else if name = File.here then descend disk last links place rest
    else if name = File.above then descend disk last links place.dropLast rest
    else if longestName < name.length then .error .nameTooLong
    else
      let next := place ++ [name]
      match disk.node? next with
      | none => if rest.isEmpty && last.mayBeMissing then .ok next else .error .notFound
      | some (.link target) =>
        if rest.isEmpty && !last.follow then .ok next
        else
          match links with
          | 0 => .error .tooManyLinks
          | links + 1 =>
            descend disk last links
              (if target.head? = some slash then [] else place) (steps target ++ rest)
      | some _ => descend disk last links next rest
termination_by (links, segments.length)

def locate (disk : Disk) (last : LastSegment) (p : Path) : Except FileError Location :=
  if p.bytes.isEmpty then .error .notFound
  else if p.bytes.contains 0 then .error .zeroByte
  else if pathLimit ≤ p.bytes.length then .error .nameTooLong
  else descend disk last linkLimit
    (if p.isAbsolute then [] else disk.workingDirectory) (steps p.bytes)

/-- Whether the segments after a name ask for a directory: by a slash at the end, or by going up. -/
def asksForDirectory (rest : List Name) : Bool :=
  match rest.dropWhile (· = File.here) with
  | [] => !rest.isEmpty
  | name :: _ => name = File.above

/-- The absolute paths by which the system is asked about the entries on a walk, links included.
Where a directory has to stand, a slash comes after. -/
def asked (disk : Disk) (links : Nat) (place : Location) (segments : List Name) : List Path :=
  match segments with
  | [] => []
  | name :: rest =>
    if disk.node? place ≠ some .directory then []
    else if name = File.here then asked disk links place rest
    else if name = File.above then asked disk links place.dropLast rest
    else if longestName < name.length then []
    else
      let next := place ++ [name]
      match disk.node? next with
      | none => []
      | some (.link target) =>
        .ofLocation next ::
          match links with
          | 0 => []
          | links + 1 => asked disk links (if target.head? = some slash then [] else place)
            (steps target ++ rest)
      | some _ =>
        (if asksForDirectory rest then ⟨(Path.ofLocation next).bytes ++ [slash]⟩ else .ofLocation next) ::
          asked disk links next rest
termination_by (links, segments.length)

def startOf (disk : Disk) (p : Path) : Location :=
  if p.isAbsolute then [] else disk.workingDirectory

/-- The place of the existing entry that the segments of a path lead to, however many they are. -/
def walk (disk : Disk) (p : Path) : Except FileError Location :=
  if p.bytes.isEmpty then .error .notFound
  else if p.bytes.contains 0 then .error .zeroByte
  else descend disk ⟨true, false⟩ linkLimit (disk.startOf p) (steps p.bytes)

/-- The place of the existing entry that a path leads to, links followed to the end. -/
def resolve (disk : Disk) (p : Path) : Except FileError Location :=
  disk.locate ⟨true, false⟩ p

def lookUp (disk : Disk) (p : Path) : Except FileError Node :=
  match disk.resolve p with
  | .error e => .error e
  | .ok location => (disk.node? location).elim (.error .notFound) .ok

def pathExists (disk : Disk) (p : Path) : Bool :=
  match disk.lookUp p with
  | .ok _ => true
  | .error _ => false

def isDirectory (disk : Disk) (p : Path) : Bool :=
  match disk.lookUp p with
  | .ok .directory => true
  | _ => false

def isFile (disk : Disk) (p : Path) : Bool :=
  match disk.lookUp p with
  | .ok node => node.isRegular
  | .error _ => false

/-- The absolute form of a path free of links, if the path leads to something and the system can be
asked about each entry on the way. The length of the path itself does not count. -/
def canonical? (disk : Disk) (p : Path) : Option Path :=
  if (disk.asked linkLimit (disk.startOf p) (steps p.bytes)).all (·.bytes.length < pathLimit) then
    (disk.walk p).toOption.map Path.ofLocation
  else none

def children (disk : Disk) (location : Location) : List (Name × Node) :=
  disk.entries.filterMap fun entry =>
    match entry.1.getLast? with
    | some name => if entry.1.dropLast = location then some (name, entry.2) else none
    | none => none

def read (disk : Disk) (p : Path) : Except FileError Bytes :=
  match disk.lookUp p with
  | .error e => .error e
  | .ok (.file content) => .ok content.readable
  | .ok .directory => .error .isADirectory
  | .ok (.link _) => .error .tooManyLinks
  | .ok .socket => .error .noSuchDevice
  | .ok .device => .ok []
  | .ok .unreadable => .error .inputOutput

def put (disk : Disk) (location : Location) (node : Node) : Disk :=
  { disk with entries := disk.entries.filter (·.1 ≠ location) ++ [(location, node)] }

def drop (disk : Disk) (location : Location) : Disk :=
  { disk with entries := disk.entries.filter (!location.isPrefixOf ·.1) }

def makeDirectory (disk : Disk) (location : Location) : Disk :=
  match disk.node? location with
  | none => disk.put location .directory
  | some _ => disk

/-- The starts of a list of segments, shortest first. -/
def starts (segments : List Name) : List (List Name) :=
  (List.range segments.length).map fun n => segments.take (n + 1)

/-- A path with some of the segments of another one. -/
def rebuilt (p : Path) (segments : List Name) : Path :=
  segments.foldl Path.join ⟨if p.isAbsolute then [slash] else []⟩

def makeDirectories (disk : Disk) (p : Path) : Except FileError Disk :=
  (starts p.segments).foldlM (fun disk segments =>
    (disk.locate ⟨true, true⟩ (rebuilt p segments)).map disk.makeDirectory) disk

def makeParents (disk : Disk) (p : Path) : Except FileError Disk :=
  disk.makeDirectories (rebuilt p p.segments.dropLast)

/-- Write a file, through links, making the directories above it. -/
def write (disk : Disk) (p : Path) (content : Bytes) : Except FileError Disk := do
  let disk ← disk.makeParents p
  let location ← disk.locate ⟨true, true⟩ p
  return disk.put location (.file (.bytes content))

/-- Put a new node at a path, which is not followed if it is a link. -/
def place (disk : Disk) (p : Path) (node : Node) : Except FileError Disk :=
  (disk.locate ⟨false, true⟩ p).map fun location => disk.put location node

def remove (disk : Disk) (p : Path) : Except FileError Disk :=
  (disk.locate ⟨false, false⟩ p).map disk.drop

end Disk

end TextArchive.File
