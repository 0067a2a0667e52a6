import TextArchive.Query.Expr
import TextArchive.Query.Token

/-!
Reading query expressions. Disjunction binds weakest, then conjunction, then exclusion; groups that
follow each other are a conjunction that binds strongest of all. Reading goes by one token of
look-ahead and keeps count of what stands open, since only so much may.
-/

set_option autoImplicit false
set_option relaxedAutoImplicit false

namespace TextArchive.Query.Parser

open TextArchive.Text.Utf8 (Bytes)

/-- What reading depends on: the terms of a text, and the names of the columns. -/
structure Context where
  terms : List Char → List Bytes
  columns : List String

/-- How much may stand open at once. -/
def roomLimit : Nat := 99

/-- How near phrases have to be if the query does not say. -/
def standardDistance : Int := 10

def unexpected : List Token → QueryError
  | [] => .unexpected ""
  | .broken error :: _ => error
  | t :: _ => .unexpected (String.ofList t.text)

/-- An error found when the next token has been looked at; a broken token comes first. -/
def afterLookAhead (error : QueryError) : List Token → QueryError
  | .broken first :: _ => first
  | _ => error

def openOne (depth : Nat) : Except QueryError Nat :=
  if depth < roomLimit then .ok (depth + 1) else .error .tooNested

def expectSign (s : Sign) (tokens : List Token) : Except QueryError (List Token) :=
  match tokens with
  | .sign t :: rest => if t = s then .ok rest else .error (unexpected tokens)
  | _ => .error (unexpected tokens)

def expectString (depth : Nat) (tokens : List Token) :
    Except QueryError (Token × Nat × List Token) :=
  match tokens with
  | .word text :: rest => (openOne depth).map fun depth => (.word text, depth, rest)
  | .quoted inner :: rest => (openOne depth).map fun depth => (.quoted inner, depth, rest)
  | _ => .error (unexpected tokens)

/-- Set whether the last of some terms is open. -/
def markLast (isOpen : Bool) : List Term → List Term
  | [] => []
  | [t] => [{ t with isOpen }]
  | t :: ts => t :: markLast isOpen ts

/-- The star that may follow a text. -/
def star (depth : Nat) (tokens : List Token) : Except QueryError (Bool × List Token) :=
  match tokens with
  | .sign .star :: rest => (openOne depth).map fun _ => (true, rest)
  | _ =>
    match openOne depth with
    | .ok _ => .ok (false, tokens)
    | .error e => .error (afterLookAhead e tokens)

/-- Terms joined by plus signs, added to those already read. -/
def phraseTail (context : Context) (depth : Nat) : Nat → List Term → List Token →
    Except QueryError (List Term × List Token)
  | 0, terms, tokens => .ok (terms, tokens)
  | fuel + 1, terms, tokens =>
    match tokens with
    | .sign .plus :: rest => do
      let inside ← openOne (depth + 1)
      let (t, inside, rest) ← expectString inside rest
      let (isOpen, rest) ← star inside rest
      phraseTail context depth fuel
        (markLast isOpen (terms ++ (context.terms t.content).map (Term.mk · false))) rest
    | _ => .ok (terms, tokens)

/-- A phrase: texts joined by plus signs, each perhaps with a star. -/
def phrase (context : Context) (depth : Nat) (leading : Bool) (tokens : List Token) :
    Except QueryError (Phrase × List Token) := do
  let (t, inside, rest) ← expectString depth tokens
  let (isOpen, rest) ← star inside rest
  let (terms, rest) ← phraseTail context depth rest.length
    (markLast isOpen ((context.terms t.content).map (Term.mk · false))) rest
  return (⟨terms, leading⟩, rest)

/-- Add a phrase to those of a group; a phrase without terms stays only while it is alone. -/
def addPhrase (phrases : List Phrase) (p : Phrase) : List Phrase :=
  if p.terms.isEmpty && !phrases.isEmpty then phrases
  else phrases.filter (!·.terms.isEmpty) ++ [p]

def phrases (context : Context) (depth : Nat) : Nat → List Phrase → List Token →
    Except QueryError (List Phrase × List Token)
  | 0, read, tokens => .ok (read, tokens)
  | fuel + 1, read, tokens =>
    match tokens with
    | .word _ :: _ => do
      let (p, rest) ← phrase context depth false tokens
      phrases context depth fuel (addPhrase read p) rest
    | .quoted _ :: _ => do
      let (p, rest) ← phrase context depth false tokens
      phrases context depth fuel (addPhrase read p) rest
    | _ => .ok (read, tokens)

/-- The number that digits stand for, in 32 bits with a sign. -/
def distanceOf (digits : List Char) : Int :=
  Int.bmod (digits.foldl (fun (n : Int) c => 10 * n + ((c.toNat : Int) - '0'.toNat)) 0) 0x100000000

def distance (stated : Option Token) : Except QueryError Int :=
  match stated with
  | none => .ok standardDistance
  | some t =>
    if t.text.all Char.isDigit then .ok (distanceOf t.text)
    else .error (.notANumber (String.ofList t.text))

/-- The distance after a comma, if there is one. -/
def statedDistance (depth : Nat) (tokens : List Token) :
    Except QueryError (Option Token × List Token) :=
  match tokens with
  | .sign .comma :: rest => do
    let inside ← openOne depth
    let (t, _, rest) ← expectString inside rest
    return (some t, rest)
  | _ =>
    match openOne depth with
    | .ok _ => .ok (none, tokens)
    | .error e => .error (afterLookAhead e tokens)

def nearWord : List Char := ['N', 'E', 'A', 'R']

/-- A group of phrases in parentheses, after its word. -/
def nearGroup (context : Context) (name : Token) (depth : Nat) (tokens : List Token) :
    Except QueryError (Group × List Token) := do
  let inside ← openOne depth
  let (first, rest) ← phrase context inside false tokens
  let (all, rest) ← phrases context (inside + 1) rest.length [first] rest
  let (stated, rest) ← statedDistance (inside + 1) rest
  let rest ← expectSign .closeParen rest
  let _ ← openOne (inside + 2)
  if name ≠ .word nearWord then
    throw (afterLookAhead (.unexpected (String.ofList name.text)) rest)
  match distance stated with
  | .ok d => return (⟨all, d, none, false⟩, rest)
  | .error e => throw (afterLookAhead e rest)

/-- A group: one phrase, a leading phrase, or phrases in parentheses. -/
def group (context : Context) (depth : Nat) (tokens : List Token) :
    Except QueryError (Group × List Token) :=
  match tokens with
  | .sign .caret :: rest => do
    let inside ← openOne depth
    let (p, rest) ← phrase context inside true rest
    return (⟨[p], standardDistance, none, false⟩, rest)
  | .word text :: .sign .openParen :: rest => do
    let inside ← openOne depth
    nearGroup context (.word text) inside rest
  | .quoted inner :: .sign .openParen :: rest => do
    let inside ← openOne depth
    nearGroup context (.quoted inner) inside rest
  | _ => do
    let (p, rest) ← phrase context depth false tokens
    return (⟨[p], standardDistance, none, false⟩, rest)

def sameName (a b : List Char) : Bool :=
  a.map Char.toLower == b.map Char.toLower

def column (context : Context) (name : Token) (rest : List Token) : Except QueryError Nat :=
  match context.columns.findIdx? fun c => sameName c.toList name.content with
  | some n => .ok n
  | none => .error (afterLookAhead (.noSuchColumn (String.ofList name.content)) rest)

/-- Columns in braces, after the first one. -/
def columnTail (context : Context) (depth : Nat) : Nat → List Nat → List Token →
    Except QueryError (List Nat × List Token)
  | 0, read, tokens => .ok (read, tokens)
  | fuel + 1, read, tokens =>
    match tokens with
    | .sign .closeBrace :: rest => (openOne depth).map fun _ => (read, rest)
    | _ => do
      let (name, _, rest) ← expectString depth tokens
      let n ← column context name rest
      columnTail context depth fuel (read ++ [n]) rest

def columnList (context : Context) (depth : Nat) (tokens : List Token) :
    Except QueryError (List Nat × List Token) := do
  let inside ← openOne depth
  let (name, inside, rest) ← expectString inside tokens
  let n ← column context name rest
  columnTail context inside (rest.length + 1) [n] rest

def otherColumns (context : Context) (columns : List Nat) : List Nat :=
  (List.range context.columns.length).filter (!columns.contains ·)

/-- The columns before a colon, if there are any. -/
def selector (context : Context) (depth : Nat) (tokens : List Token) :
    Except QueryError (Option (List Nat) × List Token) :=
  match tokens with
  | .sign .minus :: rest => do
    let inside ← openOne depth
    let (columns, rest) ←
      match rest with
      | .sign .openBrace :: rest => columnList context inside rest
      | _ => do
        let (name, _, rest) ← expectString inside rest
        let n ← column context name rest
        pure ([n], rest)
    let rest ← expectSign .colon rest
    let _ ← openOne inside
    return (some (otherColumns context columns), rest)
  | .sign .openBrace :: rest => do
    let (columns, rest) ← columnList context depth rest
    let rest ← expectSign .colon rest
    let _ ← openOne (depth + 1)
    return (some columns, rest)
  | .word text :: .sign .colon :: rest => do
    let inside ← openOne depth
    let n ← column context (.word text) []
    let _ ← openOne inside
    return (some [n], rest)
  | .quoted inner :: .sign .colon :: rest => do
    let inside ← openOne depth
    let n ← column context (.quoted inner) []
    let _ ← openOne inside
    return (some [n], rest)
  | _ => .ok (none, tokens)

def startsGroup : List Token → Bool
  | .word _ :: _ => true
  | .quoted _ :: _ => true
  | .sign s :: _ => s = .caret || s = .minus || s = .openBrace
  | _ => false

/-- A group with its columns; the columns count as two more things that stand open. -/
def restricted (columns : Option (List Nat)) (g : Group) : Group :=
  (columns.map g.restrict).getD g

/-- What stands open besides, once columns have been read. -/
def inColumns (columns : Option (List Nat)) (depth : Nat) : Nat :=
  if columns.isSome then depth + 2 else depth

/-- Groups that follow a group without an operator. -/
def moreGroups (context : Context) (depth : Nat) : Nat → List Group → List Token →
    Except QueryError (List Group × List Token)
  | 0, read, tokens => .ok (read, tokens)
  | fuel + 1, read, tokens =>
    if startsGroup tokens then do
      let (columns, rest) ← selector context depth tokens
      let (g, rest) ← group context (inColumns columns depth) rest
      moreGroups context depth fuel (read ++ [restricted columns g]) rest
    else .ok (read, tokens)

/-- Operators from the weakest to the strongest. -/
def operators : List Operator := [.or, .and, .not]

def combine (op : Operator) (left right : Expr) : Expr :=
  match op with
  | .or => .either left right
  | .and => .both left right
  | .not => .butNot left right

def bounded (e : Expr) (rest : List Token) : Except QueryError Expr :=
  if deepestTree < e.height then .error (afterLookAhead .tooDeep rest) else .ok e

mutual

/-- Expressions joined by the first of some operators; what is joined binds stronger. -/
def chain (context : Context) : Nat → List Operator → Nat → List Token →
    Except QueryError (Expr × List Token)
  | 0, _, _, tokens => .error (unexpected tokens)
  | fuel + 1, [], depth, tokens => operand context fuel depth tokens
  | fuel + 1, op :: stronger, depth, tokens => do
    let (left, rest) ← chain context fuel stronger depth tokens
    chainTail context fuel op stronger depth left rest

/-- The rest of a chain, joined from the left. -/
def chainTail (context : Context) :
    Nat → Operator → List Operator → Nat → Expr → List Token → Except QueryError (Expr × List Token)
  | 0, _, _, _, _, tokens => .error (unexpected tokens)
  | fuel + 1, op, stronger, depth, left, tokens =>
    match tokens with
    | .operator next :: rest =>
      if next = op then do
        let inside ← openOne (depth + 1)
        let (right, rest) ← chain context fuel stronger inside rest
        let e ← bounded (combine op left right) rest
        chainTail context fuel op stronger depth e rest
      else .ok (left, tokens)
    | _ => .ok (left, tokens)

/-- An expression in parentheses, or groups that follow each other. -/
def operand (context : Context) : Nat → Nat → List Token → Except QueryError (Expr × List Token)
  | 0, _, tokens => .error (unexpected tokens)
  | fuel + 1, depth, tokens =>
    match tokens with
    | .sign .openParen :: rest => inParens context fuel depth rest
    | _ => do
      let (columns, rest) ← selector context depth tokens
      match columns, rest with
      | some columns, .sign .openParen :: rest => do
        let (e, rest) ← inParens context fuel (depth + 2) rest
        return (e.restrict columns, rest)
      | _, _ => do
        let (g, rest) ← group context (inColumns columns depth) rest
        let (gs, rest) ← moreGroups context (depth + 1) rest.length [] rest
        return (Expr.allOf (restricted columns g) gs, rest)

def inParens (context : Context) : Nat → Nat → List Token → Except QueryError (Expr × List Token)
  | 0, _, tokens => .error (unexpected tokens)
  | fuel + 1, depth, tokens => do
    let inside ← openOne depth
    let (e, rest) ← chain context fuel operators inside tokens
    let rest ← expectSign .closeParen rest
    let _ ← openOne (inside + 1)
    return (e, rest)

end

def whole (context : Context) (tokens : List Token) : Except QueryError Expr := do
  let (e, rest) ← chain context (8 * tokens.length + 8) operators 0 tokens
  if rest.isEmpty then return e else throw (unexpected rest)

end TextArchive.Query.Parser
