import TextArchive.Store.Error

/-!
The statements in which a name or a specification is spliced, and the places in them that refusals
point at.
-/

set_option autoImplicit false
set_option relaxedAutoImplicit false

namespace TextArchive.Store.Statement

def placeAfter (first rest : String) : Place :=
  ⟨first ++ rest, first.utf8ByteSize⟩

/-- The refusal of a statement with a quoted text in which reading ends: a zero character ends every
statement. -/
def unclosed? (first text rest : String) : Option StoreError :=
  if text.toList.contains '\x00' then
    some (.unclosed (String.ofList ('\'' :: text.toList.takeWhile (· ≠ '\x00')))
      (placeAfter first ("'" ++ text ++ "'" ++ rest)))
  else none

/-- A text as it stands between quotes: a quote in it is written twice. -/
def escaped (s : String) : String :=
  String.ofList (s.toList.flatMap fun c => if c = '\'' then [c, c] else [c])

/-- The refusal of a setting that cannot be read to its end. -/
def unclosedSetting? (name value : String) : Option StoreError :=
  unclosed? ("PRAGMA " ++ name ++ "=") (escaped value) ""

def createHead : String := "CREATE VIRTUAL TABLE IF NOT EXISTS "

def createMiddle : String :=
  " USING fts5(
            title,
            source_path,
            content,
            tag,
            deleted_at UNINDEXED,
            tokenize = "

def createTail : String :=
  "
        );"

def create (collection tokenizer : String) : String :=
  createHead ++ collection ++ createMiddle ++ "'" ++ tokenizer ++ "'" ++ createTail

def createName (collection tokenizer : String) : Place :=
  ⟨create collection tokenizer, createHead.utf8ByteSize⟩

/-- The refusal of the definition of a collection whose tokenizer specification cannot be read to
its end. -/
def unclosedTokenizer? (collection tokenizer : String) : Option StoreError :=
  unclosed? (createHead ++ collection ++ createMiddle) tokenizer createTail

def createPlainName (collection : String) (longest : Nat) : Place :=
  placeAfter "CREATE TABLE " (collection
    ++ "(title, source_path, content, tag, deleted_at, CHECK(length(content) <= "
    ++ toString longest ++ "))")

def listingFrom (first rest collection : String) : Place :=
  placeAfter first (rest ++ "source_path, tag, substr(content, 1, 200), 0.0
             FROM " ++ collection ++ "
             WHERE deleted_at IS NULL
             ORDER BY rowid
             LIMIT ?1")

def listingRowid (collection : String) : Place :=
  listingFrom "SELECT " "rowid, title, " collection

def listingTitle (collection : String) : Place :=
  listingFrom "SELECT rowid, " "title, " collection

def rankedHead : String :=
  "SELECT rowid, title, source_path, tag,
                    snippet("

def rankedMiddle : String :=
  ", 2, '[', ']', '...', 16), "

def rankedEnd (collection : String) : String :=
  "rank
             FROM " ++ collection ++ "
             WHERE deleted_at IS NULL AND " ++ collection ++ " MATCH ?1
             ORDER BY rank
             LIMIT ?2"

def rankedTail (collection : String) : String :=
  rankedMiddle ++ rankedEnd collection

def ranked (collection : String) : String :=
  rankedHead ++ collection ++ rankedTail collection

def rankedRowid (collection : String) : Place :=
  ⟨ranked collection, "SELECT ".utf8ByteSize⟩

def rankedTitle (collection : String) : Place :=
  ⟨ranked collection, "SELECT rowid, ".utf8ByteSize⟩

def rankedName (collection : String) : Place :=
  placeAfter rankedHead (collection ++ rankedTail collection)

def rankedComma (collection : String) : Place :=
  placeAfter (rankedHead ++ collection) (rankedTail collection)

def rankedRank (collection : String) : Place :=
  placeAfter (rankedHead ++ collection ++ rankedMiddle) (rankedEnd collection)

def rowsFrom (first rest collection : String) : Place :=
  placeAfter first (rest ++ "source_path, content, tag, deleted_at FROM " ++ collection
    ++ " ORDER BY rowid")

def rowsRowid (collection : String) : Place :=
  rowsFrom "SELECT " "rowid, title, " collection

def rowsTitle (collection : String) : Place :=
  rowsFrom "SELECT rowid, " "title, " collection

def rankValue (table : String) : Place :=
  placeAfter "SELECT " ("v FROM " ++ table ++ " WHERE k = 'rank'")

end TextArchive.Store.Statement
