import TextArchive.Ingest.Error
import TextArchive.Store.Name
import TextArchive.Text.Blank

/-!
The configuration with which a store is opened. The names in it go into statements, so they are
checked before any statement is made.
-/

set_option autoImplicit false
set_option relaxedAutoImplicit false

namespace TextArchive.Store

open TextArchive.Ingest (InvalidArgument)

def standardCollection : String := "documents"

def standardTokenizer : String := "unicode61"

structure Pragmas where
  journalMode : String := "WAL"
  synchronous : String := "NORMAL"
  tempStore : String := "MEMORY"
  foreignKeys : Bool := true
deriving DecidableEq, Repr

structure Config where
  collection : String := standardCollection
  tokenizer : String := standardTokenizer
  pragmas : Pragmas := {}
deriving DecidableEq, Repr

/-- Whether a tokenizer specification can stand in a statement. -/
def isSpecification (s : String) : Bool :=
  !Text.allBlank s.toList && s.toList.all fun c => c ≠ '\'' && c ≠ '"' && c ≠ ';'

def checkName (collection : String) : Except InvalidArgument Unit :=
  if Name.isName collection then .ok () else .error (.collectionName collection)

/-- A configuration is refused if its collection is no name or its tokenizer cannot stand in a
statement. -/
def Config.validate (c : Config) : Except InvalidArgument Unit :=
  if Name.isName c.collection then
    if isSpecification c.tokenizer then .ok () else .error (.tokenizer c.tokenizer)
  else .error (.collectionName c.collection)

end TextArchive.Store
