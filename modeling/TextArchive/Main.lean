import TextArchive.Command.Answer
import TextArchive.Store.Saved

/-!
The program: it reads the files that a request is about, carries the request out, writes the
database back and prints.
-/

set_option autoImplicit false
set_option relaxedAutoImplicit false

namespace TextArchive.Main

open TextArchive.Command
open TextArchive.File (Content Disk Location Node Path)
open TextArchive.Ingest (Event Level)
open TextArchive.Store (Storage)

/-- The variables of the environment that stand in for parameters, as far as they are set. -/
def environment : IO Environment := do
  let names := (Subcommand.all.flatMap (·.parameters)).filterMap (·.variableName?)
  let values ← names.mapM fun name => return (← IO.getEnv name).map fun value => (name, value)
  return values.filterMap id

def placeOf (path : String) : Location :=
  (Path.ofString path).plainSegments

def textOf (place : Location) : String :=
  (Path.ofLocation place).display

def note (s : Storage) (place : Location) (node : Node) : Storage :=
  match s.disk.node? place with
  | none => { s with disk := s.disk.put place node }
  | some _ => s

/-- Note a file: a database under a new key, anything else as its bytes. -/
def noteFile (s : Storage) (place : Location) : IO Storage := do
  try
    let bytes := (← IO.FS.readBinFile (textOf place)).toList
    match Store.Saved.read? bytes with
    | some db =>
      let (attached, s) := s.add .file
      return note (s.setDatabase attached.key db) place (.file (.stored attached.key))
    | none => return note s place (.file (.bytes bytes))
  catch _ => return note s place .unreadable

/-- Note what stands at a place, links with what they lead to. -/
partial def look (s : Storage) (place : Location) : IO Storage := do
  if (s.disk.node? place).isSome then return s
  let s ← look s place.dropLast
  try
    let path ← IO.FS.realPath (textOf place)
    if placeOf path.toString ≠ place then
      let s := note s place (.link (Text.Utf8.ofString path.toString))
      look s (placeOf path.toString)
    else if ← path.isDir then return note s place .directory
    else if ← path.pathExists then noteFile s place
    else return s
  catch _ => return s

partial def lookBelow (s : Storage) (place : Location) : IO Storage := do
  let mut s := s
  for entry in ← (← IO.FS.realPath (textOf place)).readDir do
    let child := place ++ [Text.Utf8.ofString entry.fileName]
    s ← look s child
    if s.disk.node? child = some .directory then s ← lookBelow s child
  return s

/-- Note what stands at a path and above it. -/
def lookAt (s : Storage) (path : Path) : IO Storage :=
  match path.absolute? s.disk.workingDirectory with
  | none => return s
  | some absolute => look s absolute.plainSegments

def load (request : Request) : IO Storage := do
  let s := Storage.ofDisk ⟨[], placeOf (← IO.currentDir).toString⟩
  let s ← look s s.disk.workingDirectory
  match request.task with
  | .search task => lookAt s task.db
  | .ingest task =>
    let s ← lookAt (← lookAt s task.db) task.root
    match s.disk.resolve task.root with
    | .ok place => if s.disk.isDirectory task.root then lookBelow s place else return s
    | .error _ => return s

/-- Write the database of a path back to its file. -/
def save (s : Storage) (path : Path) : IO Unit := do
  match Storage.databasePlace? s.disk path with
  | none => return
  | some place =>
    match s.disk.node? place with
    | some (.file (.stored key)) =>
      let db := s.database key
      let bytes := if Storage.isBlank db then [] else Store.Saved.write db
      IO.FS.writeBinFile (textOf place) (ByteArray.mk bytes.toArray)
    | _ => return

def log (verbose : Bool) (events : List Event) : IO Unit :=
  (events.filter fun e => e.level = .warn || (verbose && e.level = .info)).forM fun e =>
    IO.eprintln e.line

def leave (o : Output) : IO UInt32 := do
  IO.print o.stdout
  IO.eprint o.stderr
  return UInt32.ofNat o.code

def seconds (milliseconds : Nat) : String :=
  let tenths := (milliseconds + 50) / 100
  toString (tenths / 10) ++ "." ++ toString (tenths % 10)

def carryOut (request : Request) : IO UInt32 := do
  let start ← IO.monoMsNow
  let answer := request.answer (← load request)
  match request.task with
  | .ingest task => save answer.storage task.db
  | .search _ => pure ()
  log request.verbose answer.events
  leave (answer.result.output (seconds ((← IO.monoMsNow) - start)))

end TextArchive.Main

def main (arguments : List String) : IO UInt32 := do
  let environment ← TextArchive.Main.environment
  match TextArchive.Command.Request.read environment arguments with
  | .error stop => TextArchive.Main.leave (stop.output environment)
  | .ok request => TextArchive.Main.carryOut request
