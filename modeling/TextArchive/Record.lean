import TextArchive.File.Disk
import TextArchive.Timestamp

/-!
Records: the texts kept for one file, and building them from what a path leads to. A file that
cannot be read still gives a record, whose content says why.
-/

set_option autoImplicit false
set_option relaxedAutoImplicit false

namespace TextArchive

open TextArchive.File (Disk FileError Path)

/-- What is kept for one file. -/
structure Record where
  title : String := ""
  sourcePath : String := ""
  content : String := ""
  tag : String := ""
  deletedAt : Option Timestamp := none
deriving DecidableEq, Repr

structure ReadFailure where
  path : Path
  error : FileError
deriving DecidableEq, Repr

def ReadFailure.message (f : ReadFailure) : String :=
  f.path.display ++ ": " ++ f.error.message

/-- The content kept in place of what could not be read. -/
def ReadFailure.placeholder (f : ReadFailure) : String :=
  "[error reading file: " ++ f.error.message ++ "]"

structure BuiltRecord where
  record : Record
  readFailure : Option ReadFailure
deriving DecidableEq, Repr

/-- How records are built: the tag they carry and how many bytes of a file are read. -/
structure RecordBuilder where
  tag : String
  limit : Option Nat
deriving DecidableEq, Repr

namespace RecordBuilder

/-- The bytes that a limit lets through; a limit of zero is none. -/
def capped (limit : Option Nat) (bytes : Text.Utf8.Bytes) : Text.Utf8.Bytes :=
  match limit with
  | none => bytes
  | some 0 => bytes
  | some n => bytes.take n

/-- The text of a file: its bytes up to the limit, what is ill-formed left out. -/
def readText (b : RecordBuilder) (disk : Disk) (path : Path) : Except ReadFailure String :=
  match disk.read path with
  | .error e => .error ⟨path, e⟩
  | .ok bytes => .ok (String.ofList (Text.Utf8.decodeDropping (capped b.limit bytes)))

def titleOf (path : Path) : String :=
  (path.fileName?.map fun name => (File.Path.mk name).display).getD ""

/-- The path kept for a file: free of links if it leads to something, else its absolute form. -/
def sourcePathOf (disk : Disk) (path : Path) : Path :=
  ((disk.canonical? path).or (path.absolute? disk.workingDirectory)).getD path

def build (b : RecordBuilder) (disk : Disk) (path : Path) : BuiltRecord :=
  let read := b.readText disk path
  { record :=
      { title := titleOf path
        sourcePath := (sourcePathOf disk path).display
        content := match read with
          | .ok text => text
          | .error failure => failure.placeholder
        tag := b.tag
        deletedAt := none }
    readFailure := match read with
      | .ok _ => none
      | .error failure => some failure }

end RecordBuilder

end TextArchive
