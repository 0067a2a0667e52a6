/-!
Why a query text is refused.
-/

set_option autoImplicit false
set_option relaxedAutoImplicit false

namespace TextArchive.Query

/-- The deepest tree of operators that a query may have. -/
def deepestTree : Nat := 256

inductive QueryError where
  /-- Something that cannot stand where it does; the end of the query is the empty text. -/
  | unexpected (text : String)
  | unterminated
  | noSuchColumn (name : String)
  | notANumber (text : String)
  /-- Too much stands open at once. -/
  | tooNested
  | tooDeep
  | unknownDirective (word : String)
deriving DecidableEq, Repr

def QueryError.message : QueryError → String
  | .unexpected text => "fts5: syntax error near \"" ++ text ++ "\""
  | .unterminated => "unterminated string"
  | .noSuchColumn name => "no such column: " ++ name
  | .notANumber text => "expected integer, got \"" ++ text ++ "\""
  | .tooNested => "fts5: parser stack overflow"
  | .tooDeep =>
    "fts5 expression tree is too large (maximum depth " ++ toString deepestTree ++ ")"
  | .unknownDirective word => "unknown special query: " ++ word

end TextArchive.Query
