import TextArchive.Number.Extended
import TextArchive.Text.Split

/-!
Rank expressions: the function that ranks, and its arguments in parentheses, which for the ranking
here are the weights of the columns. Numbers among them are decimal and have no exponent.
-/

set_option autoImplicit false
set_option relaxedAutoImplicit false

namespace TextArchive.Index.RankExpression

open TextArchive.Number

/-! What is taken for a rank expression -/

/-- Whether a character can stand in a name without quotes. -/
def isBare (c : Char) : Bool :=
  c.isAlphanum || c = '_' || c = '\x1a' || 128 ≤ c.toNat

def isHexDigit (c : Char) : Bool :=
  c.isDigit || ('a' ≤ c && c ≤ 'f') || ('A' ≤ c && c ≤ 'F')

def afterSpaces (cs : List Char) : List Char :=
  cs.dropWhile (· = ' ')

def afterText : List Char → Option (List Char)
  | [] => none
  | '\'' :: '\'' :: rest => afterText rest
  | '\'' :: rest => some rest
  | _ :: rest => afterText rest

def afterBytes (cs : List Char) : Option (List Char) :=
  match cs.dropWhile isHexDigit with
  | '\'' :: rest => if (cs.takeWhile isHexDigit).length % 2 = 0 then some rest else none
  | _ => none

def afterFraction : List Char → List Char
  | '.' :: c :: rest => if c.isDigit then rest.dropWhile Char.isDigit else '.' :: c :: rest
  | cs => cs

/-- What comes after a number, of which a sign, digits, or a point with digits must be there. -/
def afterNumber (cs : List Char) : Option (List Char) :=
  let unsigned := if cs.head? = some '+' || cs.head? = some '-' then cs.tail else cs
  let rest := afterFraction (unsigned.dropWhile Char.isDigit)
  if rest.length < cs.length then some rest else none

def afterLiteral (cs : List Char) : Option (List Char) :=
  if (cs.take 4).map Char.toLower = ['n', 'u', 'l', 'l'] then some (cs.drop 4)
  else
    match cs with
    | '\'' :: rest => afterText rest
    | 'x' :: '\'' :: rest => afterBytes rest
    | 'X' :: '\'' :: rest => afterBytes rest
    | cs => afterNumber cs

/-- Whether at most so many literals stand before a closing parenthesis, with commas between
them. -/
def areArguments : Nat → List Char → Bool
  | 0, _ => false
  | n + 1, cs =>
    match (afterLiteral (afterSpaces cs)).map afterSpaces with
    | some (')' :: _) => true
    | some (',' :: rest) => areArguments n rest
    | _ => false

/-- Whether what comes after a name is the arguments. -/
def hasArguments (cs : List Char) : Bool :=
  match afterSpaces cs with
  | '(' :: rest => (afterSpaces rest).head? = some ')' || areArguments rest.length rest
  | _ => false

/-- Whether a text is taken for a rank expression. It ends at a zero character, and what comes after
the arguments does not matter. -/
def isExpression (text : List Char) : Bool :=
  let cs := afterSpaces (text.takeWhile (· ≠ '\x00'))
  cs.head?.any isBare && hasArguments (cs.dropWhile isBare)

/-! The weights that it states -/

/-- The number of an argument: a minus perhaps, digits, and a point with digits. -/
def number (argument : List Char) : Float :=
  let plain := argument.filter (· ≠ ' ')
  let (negative, rest) := Literal.splitSign plain
  let magnitude :=
    Extended.ofDecimal (rest.takeWhile Char.isDigit) ((rest.dropWhile Char.isDigit).drop 1)
  if negative then -magnitude else magnitude

/-- The weights that a rank expression states, first column first. -/
def weights (expression : String) : List Float :=
  let inner := ((expression.toList.dropWhile (· ≠ '(')).drop 1).takeWhile (· ≠ ')')
  (Text.Split.words (· = ',') inner).map number

end TextArchive.Index.RankExpression
