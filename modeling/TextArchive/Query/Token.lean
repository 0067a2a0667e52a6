import TextArchive.Query.Error

/-!
The tokens of a query text: words, quoted texts, the three operators in capitals, and single signs.
-/

set_option autoImplicit false
set_option relaxedAutoImplicit false

namespace TextArchive.Query

inductive Sign where
  | openParen
  | closeParen
  | openBrace
  | closeBrace
  | colon
  | comma
  | plus
  | star
  | minus
  | caret
deriving DecidableEq, Repr

def Sign.char : Sign → Char
  | .openParen => '('
  | .closeParen => ')'
  | .openBrace => '\x7b'
  | .closeBrace => '\x7d'
  | .colon => ':'
  | .comma => ','
  | .plus => '+'
  | .star => '*'
  | .minus => '-'
  | .caret => '^'

def Sign.all : List Sign :=
  [.openParen, .closeParen, .openBrace, .closeBrace, .colon, .comma, .plus, .star, .minus, .caret]

def Sign.ofChar? (c : Char) : Option Sign :=
  Sign.all.find? (·.char = c)

inductive Operator where
  | or
  | and
  | not
deriving DecidableEq, Repr

def Operator.word : Operator → List Char
  | .or => ['O', 'R']
  | .and => ['A', 'N', 'D']
  | .not => ['N', 'O', 'T']

inductive Token where
  /-- A word without quotes. -/
  | word (text : List Char)
  /-- What stands between two quotes, quotes inside still doubled. -/
  | quoted (inner : List Char)
  | operator (op : Operator)
  | sign (s : Sign)
  /-- Something that is no token; nothing after it is read. -/
  | broken (error : QueryError)
deriving DecidableEq, Repr

namespace Token

def text : Token → List Char
  | .word text => text
  | .quoted inner => '"' :: inner ++ ['"']
  | .operator op => op.word
  | .sign s => [s.char]
  | .broken _ => []

def isWordChar (c : Char) : Bool :=
  c.isAlphanum || c = '_' || c = '\x1a' || 128 ≤ c.toNat

/-- Whether a character only separates tokens. -/
def isSpace (c : Char) : Bool :=
  c = ' ' || c = '\t' || c = '\n' || c = '\r'

/-- A word or the operator that it names. -/
def ofWord (text : List Char) : Token :=
  match [Operator.or, Operator.and, Operator.not].find? (·.word = text) with
  | some op => .operator op
  | none => .word text

/-- What stands before the closing quote, and what follows it. A doubled quote does not close. -/
def untilQuote : List Char → Option (List Char × List Char)
  | [] => none
  | '"' :: '"' :: r => (untilQuote r).map fun p => ('"' :: '"' :: p.1, p.2)
  | c :: r => if c = '"' then some ([], r) else (untilQuote r).map fun p => (c :: p.1, p.2)

/-- What a quoted text says: doubled quotes are single ones. -/
def undouble : List Char → List Char
  | [] => []
  | '"' :: '"' :: r => '"' :: undouble r
  | c :: r => c :: undouble r

/-- What a word or quoted text says. -/
def content : Token → List Char
  | .word text => text
  | .quoted inner => undouble inner
  | _ => []

private theorem length_untilQuote_lt {s inner rest : List Char}
    (h : untilQuote s = some (inner, rest)) :
    rest.length < s.length := by
  fun_induction untilQuote s generalizing inner with
  | case1 => simp at h
  | case2 r ih =>
    obtain ⟨p, hp, he⟩ := Option.map_eq_some_iff.1 h
    obtain ⟨rfl, rfl⟩ := Prod.mk.inj he
    have := ih hp
    simp
    omega
  | case3 r hc => simp_all
  | case4 c r _ hc ih =>
    obtain ⟨p, hp, he⟩ := Option.map_eq_some_iff.1 h
    obtain ⟨rfl, rfl⟩ := Prod.mk.inj he
    have := ih hp
    simp
    omega

def ofText : List Char → List Token
  | [] => []
  | c :: r =>
    if isSpace c then ofText r
    else if isWordChar c then
      ofWord (c :: r.takeWhile isWordChar) :: ofText (r.dropWhile isWordChar)
    else if c = '"' then
      match _h : untilQuote r with
      | some (inner, rest) => .quoted inner :: ofText rest
      | none => [.broken .unterminated]
    else
      match Sign.ofChar? c with
      | some s => .sign s :: ofText r
      | none => [.broken (.unexpected (String.ofList [c]))]
termination_by s => s.length
decreasing_by
  · simp
  · have := (List.dropWhile_sublist isWordChar (l := r)).length_le
    simp
    omega
  · have := length_untilQuote_lt _h
    simp
    omega
  · simp

end Token

end TextArchive.Query
