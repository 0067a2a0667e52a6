import TextArchive.File.Disk
import TextArchive.Store.Database

/-!
The saved form of a database: a header, then counted fields. A tokenizer is saved as the
specification that chose it, and an index is made anew from the rows.
-/

set_option autoImplicit false
set_option relaxedAutoImplicit false

namespace TextArchive.Store.Saved

open TextArchive.Index (Tokenizer)
open TextArchive.Text.Utf8 (Bytes)

/-! Writing -/

/-- A field: the number of its characters, a colon, the characters. -/
def counted (s : String) : List Char :=
  (toString s.length).toList ++ ':' :: s.toList

def optionFields : Option String → List String
  | none => ["0"]
  | some s => ["1", s]

def listFields {α : Type} (fields : α → List String) (xs : List α) : List String :=
  toString xs.length :: xs.flatMap fields

def rowFields (r : Row) : List String :=
  [toString r.rowid, r.title, r.sourcePath, r.content, r.tag] ++ optionFields r.deletedAt

def kindFields : TableKind → List String
  | .indexed i => "indexed" :: i.specification :: optionFields i.rank
  | .plain longest => ["plain", toString longest]

def tableFields (t : Table) : List String :=
  t.name :: kindFields t.kind ++ listFields rowFields t.rows

def databaseFields (db : Database) : List String :=
  (if db.writeAhead then "1" else "0") :: listFields tableFields db.tables

def write (db : Database) : Bytes :=
  File.databaseHeader ++ Text.Utf8.encode ((databaseFields db).flatMap counted)

/-! Reading -/

def firstField (cs : List Char) : Option (String × List Char) :=
  let digits := cs.takeWhile (· ≠ ':')
  let rest := cs.drop (digits.length + 1)
  (String.ofList digits).toNat?.bind fun n =>
    if n ≤ rest.length then some (String.ofList (rest.take n), rest.drop n) else none

def fieldsWithin : Nat → List Char → Option (List String)
  | _, [] => some []
  | 0, _ :: _ => none
  | n + 1, c :: cs => do
    let (field, rest) ← firstField (c :: cs)
    return field :: (← fieldsWithin n rest)

/-- A reader of fields, which gives what it has read and leaves the rest. -/
abbrev Reader := StateT (List String) Option

def field : Reader String := fun
  | [] => none
  | s :: rest => some (s, rest)

def number : Reader Nat := do
  liftM (← field).toNat?

def option : Reader (Option String) := do
  if (← field) = "1" then return some (← field) else return none

def times {α : Type} (read : Reader α) : Nat → Reader (List α)
  | 0 => return []
  | n + 1 => return (← read) :: (← times read n)

def list {α : Type} (read : Reader α) : Reader (List α) := do
  times read (← number)

def row : Reader Row :=
  return ⟨← number, ← field, ← field, ← field, ← field, ← option⟩

def indexing : Reader Indexing := do
  let specification ← field
  let tokenizer ← liftM (Tokenizer.ofSpecification specification).toOption
  return { Indexing.empty specification tokenizer with rank := ← option }

def kind : Reader TableKind := do
  match ← field with
  | "indexed" => return .indexed (← indexing)
  | "plain" => return .plain (← number)
  | _ => failure

def table : Reader Table := do
  let t : Table := ⟨← field, ← kind, ← list row⟩
  return t.reindex (Indexing.build t.rows)

def database : Reader Database :=
  return ⟨(← field) = "1", ← list table⟩

def read? (bytes : Bytes) : Option Database :=
  if File.databaseHeader.isPrefixOf bytes then do
    let text := Text.Utf8.decodeReplacing (bytes.drop File.databaseHeader.length)
    let (db, _) ← database (← fieldsWithin text.length text)
    return db
  else none

end TextArchive.Store.Saved
