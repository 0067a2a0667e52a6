import TextArchive.Index.RankExpression
import TextArchive.Store.Engine
import TextArchive.Store.Statement

/-!
Operations on databases: tables are made, take records, are read, and have their indexes maintained.
-/

set_option autoImplicit false
set_option relaxedAutoImplicit false

namespace TextArchive.Store

open TextArchive.Index (Tokenizer)

/-- What a name stands for in a database. -/
inductive Named where
  | table (t : Table)
  | auxiliary (owner : Table) (part : Auxiliary)
deriving DecidableEq, Repr

namespace Database

def empty : Database := ⟨false, []⟩

def find? (db : Database) (name : String) : Option Named :=
  db.tables.findSome? fun t =>
    if Name.same t.name name then some (.table t)
    else (t.auxiliaries.find? fun a => Name.same (a.tableName t.name) name).map (.auxiliary t)

/-- Whether a table has exactly this name. -/
def hasTable (db : Database) (name : String) : Bool :=
  db.tables.any fun t => t.names.contains name

def modify (db : Database) (name : String) (change : Table → Table) : Database :=
  { db with tables := db.tables.map fun t => if Name.same t.name name then change t else t }

def tokenizerError : Tokenizer.SpecificationError → StoreError
  | .malformed => .malformedTokenizer
  | .unknown name => .unknownTokenizer name
  | .badOptions => .badTokenizerOptions

/-- The first auxiliary table whose name is taken. -/
def takenAuxiliary? (db : Database) (collection : String) : Option Auxiliary :=
  Auxiliary.all.find? fun a => (db.find? (a.tableName collection)).isSome

/-- A name that the database can read where a table is defined, but not where it reads a stored
definition. -/
def unreadableName : String := "if"

/-- Make a collection under a name that is free. -/
def addCollection (db : Database) (collection specification : String) :
    Except StoreError Database :=
  if Name.same collection unreadableName then .error (.unreadableSchema collection "USING")
  else if Name.same collection "rank" then .error (.reservedTable collection)
  else
    match Tokenizer.ofSpecification specification with
    | .error e => .error (tokenizerError e)
    | .ok tokenizer =>
      if Name.isInternal (Auxiliary.data.tableName collection) then
        .error (.auxiliaryReserved (Auxiliary.data.tableName collection))
      else
        match db.takenAuxiliary? collection with
        | some a =>
          .error (.auxiliaryExists (a.tableName collection) (a.tableName collection))
        | none =>
          if Name.isAmong columnNames collection then .error (.namedLikeColumn collection)
          else
            .ok { db with tables := db.tables ++ [⟨collection,
              .indexed (.empty specification tokenizer), []⟩] }

/-- Make a collection unless something of its name is there. -/
def createCollection (db : Database) (collection specification : String) :
    Except StoreError Database :=
  if Name.isKeyword collection then
    .error (.misplaced collection (Statement.createName collection specification))
  else if Name.isInternal collection then .error (.reservedName collection)
  else
    match Statement.unclosedTokenizer? collection specification with
    | some e => .error e
    | none =>
      if (db.find? collection).isSome then .ok db else db.addCollection collection specification

def createPlain (db : Database) (name : String) (longest : Nat) : Except StoreError Database :=
  let place := Statement.createPlainName name longest
  if Name.isKeyword name then .error (.misplaced name place)
  else if Name.isInternal name then .error (.reservedName name)
  else if (db.find? name).isSome then .error (.tableExists name place)
  else .ok { db with tables := db.tables ++ [⟨name, .plain longest, []⟩] }

/-- The table that takes the records for a collection. -/
def insertable (db : Database) (collection : String) : Except StoreError Table :=
  match db.find? collection with
  | none => .error (.noSuchTable collection)
  | some (.auxiliary _ _) => .error (.tableLacksColumn collection "title")
  | some (.table t) => .ok t

def insert [Engine] (db : Database) (collection : String) (r : Record) : Except Refusal Database :=
  match db.insertable collection with
  | .error e => .error ⟨e, false⟩
  | .ok t =>
    match Engine.refuses? t r with
    | some refusal => .error refusal
    | none => .ok (db.modify collection (·.accept r))

def commandable (db : Database) (collection : String) : Except StoreError Unit :=
  match db.find? collection with
  | none => .error (.noSuchTable collection)
  | some (.table ⟨_, .indexed _, _⟩) => .ok ()
  | some _ => .error (.tableLacksColumn collection collection)

/-- Set the rank expression of a collection, if it is one. -/
def setRank (db : Database) (collection rank : String) : Except StoreError Database :=
  match db.commandable collection with
  | .error e => .error e
  | .ok () =>
    if Index.RankExpression.isExpression rank.toList then
      .ok (db.modify collection (Table.reindex (Indexing.withRank rank)))
    else .error .unusableRank

/-- Make the index of a collection anew from its rows. -/
def rebuild (db : Database) (collection : String) : Except StoreError Database :=
  (db.commandable collection).map fun _ =>
    db.modify collection fun t => t.reindex (Indexing.build t.rows)

/-- Make one segment of the index of a collection. -/
def optimize (db : Database) (collection : String) : Except StoreError Database :=
  (db.commandable collection).map fun _ => db.modify collection (Table.reindex Indexing.merge)

/-- The number of rows of an auxiliary table. A segment takes one page, and so it has one row in the
table of pages and one in the table that leads to them. -/
def auxiliaryCount (owner : Table) (part : Auxiliary) : Nat :=
  match owner.kind, part with
  | .indexed indexing, .config => if indexing.rank.isSome then 2 else 1
  | .indexed indexing, .data => 2 + indexing.filled
  | .indexed indexing, .idx => indexing.filled
  | _, _ => owner.rows.length

def count (db : Database) (collection : String) : Except StoreError Nat :=
  match db.find? collection with
  | none => .error (.noSuchTable collection)
  | some (.table t) => .ok t.rows.length
  | some (.auxiliary owner part) => .ok (auxiliaryCount owner part)

def rankConfig (db : Database) (collection : String) : Except StoreError (Option String) :=
  let name := Auxiliary.config.tableName collection
  match db.find? name with
  | some (.auxiliary ⟨_, .indexed indexing, _⟩ .config) => .ok indexing.rank
  | none => .error (.noSuchTable name)
  | some _ => .error (.noSuchColumn "v" (some (Statement.rankValue name)))

def rows (db : Database) (collection : String) : Except StoreError (List Row) :=
  match db.find? collection with
  | none => .error (.noSuchTable collection)
  | some (.table t) => .ok t.rows
  | some (.auxiliary _ part) =>
    if part.hasRowid then
      .error (.noSuchColumn "title" (some (Statement.rowsTitle collection)))
    else .error (.noSuchColumn "rowid" (some (Statement.rowsRowid collection)))

/-- Set the deletion time of the rows of a title. -/
def markDeleted (title : String) (time : Option String) (t : Table) : Table :=
  { t with rows := t.rows.map fun r => if r.title = title then { r with deletedAt := time } else r }

/-- Set the deletion time of the rows of a title in a collection; the result says how many there
are. -/
def softDelete (db : Database) (collection title : String) (time : Option String) :
    Except StoreError (Nat × Database) :=
  match db.find? collection with
  | none => .error (.noSuchTable collection)
  | some (.table t) =>
    .ok ((t.rows.filter (·.title = title)).length, db.modify collection (markDeleted title time))
  | some (.auxiliary _ _) => .error (.noSuchColumn "deleted_at" none)

end Database

end TextArchive.Store
