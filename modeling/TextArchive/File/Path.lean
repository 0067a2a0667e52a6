import TextArchive.Text.Split
import TextArchive.Text.Utf8

/-!
File paths as byte strings: their segments, their last name, joining, and the absolute form that a
path has when nothing is known about the files it names.
-/

set_option autoImplicit false
set_option relaxedAutoImplicit false

namespace TextArchive.File

open TextArchive.Text.Utf8 (Bytes)

abbrev Name := Bytes

/-- A place in the tree of files: the names from the top directory down. -/
abbrev Location := List Name

def slash : UInt8 := 47

/-- The segment that stands for the directory itself. -/
def here : Name := [46]

/-- The segment that stands for the directory above. -/
def above : Name := [46, 46]

/-- A path as it is written. -/
structure Path where
  bytes : Bytes
deriving DecidableEq, Repr

namespace Path

def ofString (s : String) : Path :=
  ⟨Text.Utf8.ofString s⟩

/-- The path as text, ill-formed bytes replaced. -/
def display (p : Path) : String :=
  String.ofList (Text.Utf8.decodeReplacing p.bytes)

def isAbsolute (p : Path) : Bool :=
  p.bytes.head? = some slash

def endsInSlash (p : Path) : Bool :=
  p.bytes.getLast? = some slash

def segments (p : Path) : List Name :=
  Text.Split.words (· = slash) p.bytes

/-- The segments that say something: those that stand for the directory itself are left out. -/
def plainSegments (p : Path) : List Name :=
  p.segments.filter (· ≠ here)

/-- The last name, unless the path ends at the top directory or goes up last. -/
def fileName? (p : Path) : Option Name :=
  match p.plainSegments.getLast? with
  | none => none
  | some name => if name = above then none else some name

/-- The path of an entry of the directory that a path names. -/
def join (p : Path) (name : Name) : Path :=
  if p.bytes.isEmpty then ⟨name⟩
  else if p.endsInSlash then ⟨p.bytes ++ name⟩
  else ⟨p.bytes ++ slash :: name⟩

def ofLocation (location : Location) : Path :=
  location.foldl join ⟨[slash]⟩

/-- What an absolute form starts with: two slashes where the path has exactly two, one where it is
absolute, and the working directory otherwise. -/
def absoluteStart (workingDirectory : Location) (p : Path) : Path :=
  match p.bytes with
  | 47 :: 47 :: 47 :: _ => ⟨[slash]⟩
  | 47 :: 47 :: _ => ⟨[slash, slash]⟩
  | 47 :: _ => ⟨[slash]⟩
  | _ => ofLocation workingDirectory

/-- The absolute form of a non-empty path, without looking at any file: superfluous slashes and
segments are dropped, a final slash stays, and going up is not resolved. -/
def absolute? (workingDirectory : Location) (p : Path) : Option Path :=
  if p.bytes.isEmpty then none
  else
    let joined := p.plainSegments.foldl join (absoluteStart workingDirectory p)
    some (if p.endsInSlash && !joined.endsInSlash then ⟨joined.bytes ++ [slash]⟩ else joined)

end Path

def bytesLe : Bytes → Bytes → Bool
  | [], _ => true
  | _ :: _, [] => false
  | a :: r, b :: s => a < b || (a = b && bytesLe r s)

end TextArchive.File
