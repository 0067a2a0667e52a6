import TextArchive.Ingest.Options
import TextArchive.Search
import TextArchive.Store.Config

/-!
The parameters of the command line: their names, the values that they take, the variables of the
environment that stand in for them, and which of them the two subcommands know.
-/

set_option autoImplicit false
set_option relaxedAutoImplicit false

namespace TextArchive.Command

/-- The variables of the environment with their values. -/
abbrev Environment := List (String × String)

inductive Parameter where
  | db
  | root
  | batchSize
  | maxFiles
  | limitBytes
  | tag
  | collection
  | tokenizer
  | rankWeights
  | query
  | topK
  | json
  | verbose
deriving DecidableEq, Repr

inductive ValueKind where
  | path
  | count
  | text
  /-- Decimals with commas between them. -/
  | decimals
  /-- No value: the parameter is there or not. -/
  | flag
deriving DecidableEq, Repr

namespace Parameter

def name : Parameter → String
  | .db => "db"
  | .root => "root"
  | .batchSize => "batch-size"
  | .maxFiles => "max-files"
  | .limitBytes => "limit-bytes"
  | .tag => "tag"
  | .collection => "collection"
  | .tokenizer => "tokenizer"
  | .rankWeights => "rank-weights"
  | .query => "query"
  | .topK => "top-k"
  | .json => "json"
  | .verbose => "verbose"

def kind : Parameter → ValueKind
  | .db => .path
  | .root => .path
  | .batchSize => .count
  | .maxFiles => .count
  | .limitBytes => .count
  | .rankWeights => .decimals
  | .topK => .count
  | .json => .flag
  | .verbose => .flag
  | _ => .text

def upperName (p : Parameter) : String :=
  p.name.map fun c => if c = '-' then '_' else c.toUpper

/-- A parameter as messages show it: with a place for its value. -/
def shown (p : Parameter) : String :=
  if p.kind = .flag then "--" ++ p.name else "--" ++ p.name ++ " <" ++ p.upperName ++ ">"

/-- Parameters for which no variable of the environment stands in. -/
def withoutVariable : List Parameter := [.rankWeights, .query, .topK, .json, .verbose]

/-- The variable of the environment that stands in for a parameter. -/
def variableName? (p : Parameter) : Option String :=
  if withoutVariable.contains p then none else some ("FTS_INGEST_" ++ p.upperName)

def summary : Parameter → String
  | .db => "SQLite database file"
  | .root => "Folder scanned recursively"
  | .batchSize => "Records per insert transaction"
  | .maxFiles => "Stop after this many files"
  | .limitBytes => "Read at most this many bytes per file (0 reads everything)"
  | .tag => "Text stored in the tag column of every record"
  | .collection => "Full-text table name"
  | .tokenizer => "FTS5 tokenizer used when the table is created"
  | .rankWeights => "bm25 weights for title,source_path,content,tag"
  | .query => "FTS5 query; empty lists rows"
  | .topK => "Number of hits to return"
  | .json => "Print hits as JSON"
  | .verbose => "Log per-batch progress"

/-- The value that a parameter has if it is not given. -/
def standard? : Parameter → Option String
  | .batchSize => some (toString Ingest.standardBatchSize)
  | .tag => some Ingest.standardTag
  | .collection => some Store.standardCollection
  | .tokenizer => some Store.standardTokenizer
  | .query => some ""
  | .topK => some (toString Search.standardTopK)
  | _ => none

end Parameter

inductive Subcommand where
  | ingest
  | search
deriving DecidableEq, Repr

namespace Subcommand

def all : List Subcommand := [.ingest, .search]

def name : Subcommand → String
  | .ingest => "ingest"
  | .search => "search"

def summary : Subcommand → String
  | .ingest => "Load every file under a folder into the full-text collection"
  | .search => "Ranked full-text search over an existing collection"

def parameters : Subcommand → List Parameter
  | .ingest =>
    [.db, .root, .batchSize, .verbose, .maxFiles, .limitBytes, .tag, .collection, .tokenizer,
      .rankWeights]
  | .search => [.db, .query, .topK, .verbose, .collection, .json]

def required : Subcommand → List Parameter
  | .ingest => [.db, .root]
  | .search => [.db]

def summaryOf (s : Subcommand) (p : Parameter) : String :=
  if s = .ingest && p = .db then p.summary ++ ", created if missing" else p.summary

def parameter? (s : Subcommand) (name : String) : Option Parameter :=
  s.parameters.find? (·.name = name)

def ofName? (name : String) : Option Subcommand :=
  all.find? (·.name = name)

end Subcommand

def programName : String := "fts-ingest"

def programVersion : String := "0.1.0"

end TextArchive.Command
