import TextArchive.File.Disk
import TextArchive.Store.Database
import TextArchive.Store.Setting

/-!
Storage: a tree of files, the databases that are kept in them or in memory, and the connections that
are open. A database is known by its key, which stays the same while its file is removed or another
one takes its path. A path that has the form of a resource name, and so may stand for another file
or for memory, is taken for the name that it is. The files beside a database are those of a log; a
journal is there while a transaction is open, or longer in two of the modes, and is not shown.
-/

set_option autoImplicit false
set_option relaxedAutoImplicit false

namespace TextArchive.Store

open TextArchive.File (Content Disk Location Name Node Path)

/-- Files, databases by key, and the keys of the open connections. -/
structure Storage where
  disk : Disk
  databases : List Database
  connected : List Nat
deriving Repr

/-- A database that a path has led to. -/
structure Attached where
  key : Nat
  medium : Medium
deriving DecidableEq, Repr

namespace Storage

def ofDisk (disk : Disk) : Storage :=
  ⟨disk, [], []⟩

def database (s : Storage) (key : Nat) : Database :=
  s.databases[key]?.getD .empty

def setDatabase (s : Storage) (key : Nat) (db : Database) : Storage :=
  { s with databases := s.databases.set key db }

/-- Whether nothing has been written to a database yet. -/
def isBlank (db : Database) : Bool :=
  !db.writeAhead && db.tables.isEmpty

/-- A node as it shows itself: a database to which nothing has been written is an empty file. -/
def shownNode (s : Storage) : Node → Node
  | .file (.stored key) => .file (if isBlank (s.database key) then .bytes [] else .stored key)
  | node => node

/-- What is added to the name of a database for the files beside it. -/
def sideSuffixes : List String := ["-wal", "-shm"]

/-- The files beside an entry: those of a database with a log while it is connected. -/
def sideFiles (s : Storage) (entry : Location × Node) : List (Location × Node) :=
  match entry.2 with
  | .file (.stored key) =>
    if s.connected.contains key && (s.database key).writeAhead then
      sideSuffixes.map fun suffix =>
        (entry.1.dropLast ++ [entry.1.getLast?.getD [] ++ Text.Utf8.ofString suffix],
          .file (.bytes []))
    else []
  | _ => []

/-- Whether there is room for a file beside a database: nothing else stands at its place, and its
name is not too long. -/
def hasRoom (disk : Disk) (place : Location) : Bool :=
  (disk.node? place).isNone && decide ((place.getLast?.getD []).length ≤ Disk.longestName)

/-- The tree of files as it shows itself, with the files beside databases. -/
def shown (s : Storage) : Disk :=
  { s.disk with
    entries := s.disk.entries.map (fun entry => (entry.1, s.shownNode entry.2))
      ++ (s.disk.entries.flatMap s.sideFiles).filter fun side => hasRoom s.disk side.1 }

/-- How many links the path of a database may lead over. -/
def linkLimit : Nat := 201

/-- The places that the path of a database leads over are shorter than this many bytes. -/
def longestPlace : Nat := 512

/-- The place of a database is shorter than this many bytes, so that names beside it can be
longer. -/
def longestDatabasePlace : Nat := 505

/-- Walk segments from a place. What is missing may be walked over; a file may not. -/
def follow (disk : Disk) (links : Nat) (place : Location) (segments : List Name) :
    Option Location :=
  match segments with
  | [] => some place
  | name :: rest =>
    if name = File.here then follow disk links place rest
    else if name = File.above then follow disk links place.dropLast rest
    else
      let next := place ++ [name]
      if Disk.longestName < name.length || longestPlace ≤
        (Path.ofLocation next).bytes.length then none
      else if !((disk.node? place).all (· = .directory)) then none
      else
        match disk.node? next with
        | some (.link target) =>
          match links with
          | 0 => none
          | links + 1 =>
            follow disk links (if target.head? = some File.slash then [] else place)
              ((File.Path.mk target).segments ++ rest)
        | _ => follow disk links next rest
termination_by (links, segments.length)

/-- The place where the database of a path is or would be, in a directory that exists. -/
def databasePlace? (disk : Disk) (path : Path) : Option Location :=
  match follow disk linkLimit
    (if path.isAbsolute then [] else disk.workingDirectory) path.segments with
  | none => none
  | some place =>
    if longestDatabasePlace ≤ (Path.ofLocation place).bytes.length then none
    else if disk.node? place.dropLast = some .directory then some place
    else none

def memoryPath : Path := .ofString ":memory:"

def add (s : Storage) (medium : Medium) : Attached × Storage :=
  (⟨s.databases.length, medium⟩, { s with databases := s.databases ++ [.empty] })

def addAt (s : Storage) (place : Location) : Attached × Storage :=
  let (attached, s) := s.add .file
  (attached, { s with disk := s.disk.put place (.file (.stored attached.key)) })

/-- Find the database of a path. A missing one is made if that is allowed, an empty file and a
device are empty databases, and a file that is no database is found, but cannot be read. -/
def attach (s : Storage) (path : Path) (mayCreate : Bool) :
    Except StoreError (Attached × Storage) :=
  match path.bytes.findIdx? (· = 0) with
  | some position => .error (.zeroByte position)
  | none =>
    if path = memoryPath then .ok (s.add .memory)
    else if path.bytes.isEmpty then .ok (s.add .temporary)
    else
      match databasePlace? s.disk path with
      | none => .error (.cannotOpen path.display)
      | some place =>
        match s.disk.node? place with
        | some (.file (.stored key)) => .ok (⟨key, .file⟩, s)
        | some (.file (.bytes [])) => .ok (s.addAt place)
        | some (.file (.bytes (_ :: _))) => .error .notADatabase
        | some .unreadable => .error .unreadable
        | some .device => .ok (s.add .device)
        | some _ => .error (.cannotOpen path.display)
        | none => if mayCreate then .ok (s.addAt place) else .error (.cannotOpen path.display)

/-- Make an ordinary table in the database of a path. A database made for it stays if the table is
refused. -/
def createPlain (s : Storage) (path : Path) (name : String) (longest : Nat) :
    Except StoreError Unit × Storage :=
  match s.attach path true with
  | .error e => (.error e, s)
  | .ok (attached, s) =>
    match (s.database attached.key).createPlain name longest with
    | .error e => (.error e, s)
    | .ok db =>
      if attached.medium = .device then (.error .unwritable, s) else (.ok (),
        s.setDatabase attached.key db)

end Storage

end TextArchive.Store
