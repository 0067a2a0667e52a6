/-!
Names of collections: which texts are names, when two names are the same, and which names the
database keeps for itself.
-/

set_option autoImplicit false
set_option relaxedAutoImplicit false

namespace TextArchive.Store.Name

def isFirst (c : Char) : Bool :=
  c.isAlpha || c = '_'

def isNext (c : Char) : Bool :=
  c.isAlphanum || c = '_'

/-- Whether a text is a name: a letter or underscore, then letters, digits and underscores. -/
def isName (s : String) : Bool :=
  match s.toList with
  | [] => false
  | c :: r => isFirst c && r.all isNext

/-- A text in lower case, as far as it is ASCII. -/
def lower (s : String) : List Char :=
  s.toList.map Char.toLower

/-- Whether two names are the same to the database: case does not count. -/
def same (a b : String) : Bool :=
  lower a == lower b

/-- Words of the query language that cannot be names. -/
def keywords : List String :=
  ["add", "all", "alter", "and", "as", "autoincrement", "between", "case", "check", "collate",
   "commit", "constraint", "create", "default", "deferrable", "delete", "distinct", "drop", "else",
   "escape", "except", "exists", "foreign", "from", "group", "having", "in", "index", "insert",
   "intersect", "into", "is", "isnull", "join", "limit", "not", "nothing", "notnull", "null", "on",
   "or", "order", "primary", "references", "returning", "select", "set", "table", "then", "to",
   "transaction", "union", "unique", "update", "using", "values", "when", "where"]

def isAmong (words : List String) (name : String) : Bool :=
  words.any (same name)

def isKeyword (name : String) : Bool :=
  isAmong keywords name

/-- Whether a name starts like those of the database's own tables. -/
def isInternal (name : String) : Bool :=
  "sqlite_".toList.isPrefixOf (lower name)

/-- The names that the number of a row has in every table, unless a column takes them. -/
def numberNames : List String := ["rowid", "oid", "_rowid_"]

/-- Names that start an expression of their own where a column is meant. -/
def expressionWords : List String := ["cast", "raise"]

/-- Names that stand for the current time where a column is meant. -/
def timeWords : List String := ["current_date", "current_time", "current_timestamp"]

end TextArchive.Store.Name
