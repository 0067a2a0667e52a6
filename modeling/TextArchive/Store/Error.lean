import TextArchive.Query.Error

/-!
Why the database refuses an operation, the texts of these refusals, and the result codes that go
with them.
-/

set_option autoImplicit false
set_option relaxedAutoImplicit false

namespace TextArchive.Store

/-- A place in a statement, in bytes from its start. -/
structure Place where
  statement : String
  offset : Nat
deriving DecidableEq, Repr

inductive StoreError where
  /-- A collection in memory has been told to refuse. -/
  | notReadOnly
  /-- The path of the database holds a zero byte. -/
  | zeroByte (position : Nat)
  | cannotOpen (path : String)
  | notADatabase
  /-- A file that cannot be read. -/
  | unreadable
  /-- A file that does not keep what is written. -/
  | unwritable
  /-- A change that the other connections of a database do not admit. -/
  | locked
  /-- A word that cannot stand where it does in a statement. -/
  | misplaced (near : String) (place : Place)
  /-- A quoted text that does not end before the statement does. -/
  | unclosed (token : String) (place : Place)
  /-- A name with which the stored definition cannot be read again. -/
  | unreadableSchema (name : String) (near : String)
  | reservedName (name : String)
  | reservedTable (name : String)
  | unknownTokenizer (name : String)
  | malformedTokenizer
  | badTokenizerOptions
  /-- A collection named like one of its columns. -/
  | namedLikeColumn (name : String)
  /-- A table of the index that exists under its name already. -/
  | auxiliaryExists (auxiliary table : String)
  /-- A table of the index whose name the database keeps for itself. -/
  | auxiliaryReserved (auxiliary : String)
  | tableExists (name : String) (place : Place)
  | noSuchTable (name : String)
  | noSuchColumn (name : String) (place : Option Place)
  | tableLacksColumn (table column : String)
  /-- A transaction on a connection that has one open. -/
  | withinTransaction
  /-- The end of a transaction on a connection that has none open. -/
  | withoutTransaction (statement : String)
  /-- A text that is too big for the database. -/
  | tooBig
  /-- A content longer than an ordinary table admits. -/
  | contentTooLong (longest : Nat)
  /-- A text that is no rank expression. -/
  | unusableRank
  /-- A function that is given something other than a column of a collection. -/
  | unusableFunction (name : String)
  /-- A value that should be there and is not. -/
  | missingValue (index : Nat) (column : String)
  /-- A row of a collection that its index does not have or has otherwise. -/
  | malformedCollection
  | query (error : Query.QueryError)
deriving DecidableEq, Repr

namespace StoreError

def title : StoreError → String
  | .notReadOnly => "Query is not read-only"
  | .zeroByte position => "nul byte found in provided data at position: " ++ toString position
  | .cannotOpen path => "unable to open database file: " ++ path
  | .notADatabase => "file is not a database"
  | .unreadable => "disk I/O error"
  | .unwritable => "disk I/O error"
  | .locked => "database is locked"
  | .misplaced near _ => "near \"" ++ near ++ "\": syntax error"
  | .unclosed token _ => "unrecognized token: \"" ++ token ++ "\""
  | .unreadableSchema name near =>
    "malformed database schema (" ++ name ++ ") - near \"" ++ near ++ "\": syntax error"
  | .reservedName name => "object name reserved for internal use: " ++ name
  | .reservedTable name => "reserved fts5 table name: " ++ name
  | .unknownTokenizer name => "no such tokenizer: " ++ name
  | .malformedTokenizer => "parse error in tokenize directive"
  | .badTokenizerOptions => "error in tokenizer constructor"
  | .namedLikeColumn name => "vtable constructor failed: " ++ name
  | .auxiliaryExists auxiliary table =>
    "fts5: error creating shadow table " ++ auxiliary ++ ": table '" ++ table ++ "' already exists"
  | .auxiliaryReserved auxiliary =>
    "fts5: error creating shadow table " ++ auxiliary ++ ": object name reserved for internal use: "
      ++ auxiliary
  | .tableExists name _ => "table " ++ name ++ " already exists"
  | .noSuchTable name => "no such table: " ++ name
  | .noSuchColumn name _ => "no such column: " ++ name
  | .tableLacksColumn table column => "table " ++ table ++ " has no column named " ++ column
  | .withinTransaction => "cannot start a transaction within a transaction"
  | .withoutTransaction statement => "cannot " ++ statement ++ " - no transaction is active"
  | .tooBig => "string or blob too big"
  | .contentTooLong longest => "CHECK constraint failed: length(content) <= " ++ toString longest
  | .unusableRank => "SQL logic error"
  | .unusableFunction name =>
    "unable to use function " ++ name ++ " in the requested context"
  | .missingValue index column =>
    "Invalid column type Null at index: " ++ toString index ++ ", name: " ++ column
  | .malformedCollection => "database disk image is malformed"
  | .query error => error.message

def place? : StoreError → Option Place
  | .misplaced _ place => some place
  | .unclosed _ place => some place
  | .tableExists _ place => some place
  | .noSuchColumn _ place => place
  | _ => none

def message (e : StoreError) : String :=
  match e.place? with
  | some p => e.title ++ " in " ++ p.statement ++ " at offset " ++ toString p.offset
  | none => e.title

/-- The result code of a refusal and its description; refusals that do not come from the engine have
none. -/
def code? : StoreError → Option (Nat × String)
  | .notReadOnly => none
  | .zeroByte _ => none
  | .missingValue _ _ => none
  | .cannotOpen _ => some (14, "Unable to open the database file")
  | .notADatabase => some (26, "File opened that is not a database file")
  | .unreadable => some (8458, "Unknown error code")
  | .unwritable => some (1034, "Error flushing data to persistent storage (fsync)")
  | .locked => some (5, "The database file is locked")
  | .tooBig => some (18, "String or BLOB exceeds size limit")
  | .unreadableSchema _ _ => some (11, "The database disk image is malformed")
  | .malformedCollection => some (267, "Content in the virtual table is corrupt")
  | .contentTooLong _ => some (275, "A CHECK constraint failed")
  | _ => some (1, "SQL error or missing database")

/-- What is behind a refusal, outermost first. -/
def causes (e : StoreError) : List String :=
  match e with
  | .zeroByte _ => [e.title]
  | _ => (e.code?.map fun c => "Error code " ++ toString c.1 ++ ": " ++ c.2).toList

end StoreError

end TextArchive.Store
