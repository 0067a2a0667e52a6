import TextArchive.Store.Config

/-!
Settings of a connection: what the words of a configuration ask for, and what comes of it. A word
that the database does not know is not an error; it leaves a setting as it is or puts it to a fixed
value.
-/

set_option autoImplicit false
set_option relaxedAutoImplicit false

namespace TextArchive.Store

/-- Where the pages of a change are kept until the change is complete. -/
inductive JournalMode where
  | delete
  | persist
  | off
  | truncate
  | memory
  | wal
deriving DecidableEq, Repr

namespace JournalMode

/-- Every mode, in the order in which a request is compared with them. -/
def all : List JournalMode := [.delete, .persist, .off, .truncate, .memory, .wal]

def name : JournalMode → String
  | .delete => "delete"
  | .persist => "persist"
  | .off => "off"
  | .truncate => "truncate"
  | .memory => "memory"
  | .wal => "wal"

/-- The mode that a text asks for: the first whose name starts with it, in any case. -/
def requested? (text : String) : Option JournalMode :=
  all.find? fun mode => (Name.lower text).isPrefixOf mode.name.toList

end JournalMode

inductive Medium where
  /-- In memory, for one connection. -/
  | memory
  /-- In a nameless file, for one connection. -/
  | temporary
  | file
  /-- A device that is always at its end and keeps nothing. -/
  | device
deriving DecidableEq, Repr

namespace Medium

/-- The mode in which a medium starts if its database has not been switched to a log. -/
def firstMode : Medium → JournalMode
  | .memory => .memory
  | .temporary => .delete
  | .file => .delete
  | .device => .delete

/-- Whether a medium admits a mode: memory has nothing but itself, and a log has to stand beside a
file. -/
def admits : Medium → JournalMode → Bool
  | .memory, mode => mode = .memory || mode = .off
  | .temporary, mode => mode ≠ .wal
  | .file, _ => true
  | .device, _ => true

/-- The mode after a request, if there is one that the medium admits. -/
def modeAfter (medium : Medium) (current : JournalMode) (request : Option JournalMode) :
    JournalMode :=
  (request.filter medium.admits).getD current

end Medium

/-- The number at the start of a text, or zero if it does not fit into 31 bits. -/
def leadingNumber (cs : List Char) : Nat :=
  let n := (cs.takeWhile Char.isDigit).foldl (fun n c => n * 10 + (c.toNat - '0'.toNat)) 0
  if n < 0x80000000 then n else 0

/-- The words for how far a change has to have got on its way to the disk. -/
def synchronousWords : List (String × Nat) :=
  [("on", 1), ("no", 0), ("off", 0), ("false", 0), ("yes", 1), ("true", 1),
    ("extra", 3), ("full", 2)]

/-- What a text asks for in the way of synchronous writing: a number, a word, and otherwise the
level in the middle. -/
def synchronousRequest (text : String) : Nat :=
  match text.toList with
  | [] => 1
  | c :: cs =>
    if c.isDigit then leadingNumber (c :: cs) % 256
    else ((synchronousWords.find? fun word => Name.same word.1 text).map (·.2)).getD 1

/-- The level of synchronous writing that a text leads to. -/
def synchronousLevel (text : String) : Nat :=
  (synchronousRequest text + 1) % 8 - 1

/-- Where temporary tables go: a number, a word, and otherwise where the database likes. -/
def temporaryPlace (text : String) : Nat :=
  match text.toList with
  | '0' :: _ => 0
  | '1' :: _ => 1
  | '2' :: _ => 2
  | _ => if Name.same text "file" then 1 else if Name.same text "memory" then 2 else 0

structure Settings where
  journalMode : JournalMode
  synchronous : Nat
  temporary : Nat
  foreignKeys : Bool
deriving DecidableEq, Repr

namespace Settings

/-- The settings of a connection for which nothing has been asked. -/
def unasked (mode : JournalMode) : Settings :=
  ⟨mode, 2, 0, true⟩

/-- The settings of a connection with a mode that are asked for. -/
def asked (mode : JournalMode) (pragmas : Pragmas) : Settings :=
  ⟨mode, synchronousLevel pragmas.synchronous,
    temporaryPlace pragmas.tempStore, pragmas.foreignKeys⟩

end Settings

end TextArchive.Store
