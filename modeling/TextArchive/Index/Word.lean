import TextArchive.Index.Token
import TextArchive.Text.Category
import TextArchive.Text.Diacritic
import TextArchive.Text.Folding

/-!
Words as tokens: maximal runs of token characters, in lower case. The Unicode rule takes letters,
numbers and private characters for token characters and removes diacritics; the ASCII rule takes
letters and digits of ASCII and every character beyond it.
-/

set_option autoImplicit false
set_option relaxedAutoImplicit false

namespace TextArchive.Index

open TextArchive.Text (Category)
open TextArchive.Text.Diacritic (Removal)

/-- What makes up words: which characters can start one, which can continue one, and what a
character adds to the term. -/
structure WordRule where
  starts : Char → Bool
  continues : Char → Bool
  folded : Char → List Char

namespace WordRule

/-- The token that starts a list of placed characters, given that the first starts a word. -/
def tokenOf (rule : WordRule) (start : Nat) (c : Char) (rest : List (Nat × Char)) : Token :=
  let run := c :: (rest.takeWhile (rule.continues ·.2)).map (·.2)
  ⟨Text.Utf8.encode (run.flatMap rule.folded), start, start + run.length⟩

def tokensOf (rule : WordRule) : List (Nat × Char) → List Token
  | [] => []
  | (start, c) :: rest =>
    if rule.starts c then
      rule.tokenOf start c rest :: rule.tokensOf (rest.dropWhile (rule.continues ·.2))
    else rule.tokensOf rest
termination_by cs => cs.length
decreasing_by
  · have := (List.dropWhile_sublist (fun p : Nat × Char => rule.continues p.2)
      (l := rest)).length_le
    simp
    omega
  · simp

def tokens (rule : WordRule) (text : List Char) : List Token :=
  rule.tokensOf (placed 0 text)

end WordRule

/-- Characters that an option adds to the token characters or takes from them. -/
inductive Exception where
  | token (c : Char)
  | separator (c : Char)
deriving DecidableEq, Repr

/-- What the last exception for a character says, or what holds without one. -/
def Exception.decide (exceptions : List Exception) (c : Char) (otherwise : Bool) : Bool :=
  exceptions.foldl (fun (isToken : Bool) (e : Exception) =>
    match e with
    | .token d => isToken || d = c
    | .separator d => isToken && d ≠ c) otherwise

structure WordOptions where
  removal : Removal
  /-- The categories of token characters; none stands for letters, numbers and private
  characters. -/
  categories : Option (List Category)
  exceptions : List Exception
deriving DecidableEq, Repr

def WordOptions.standard : WordOptions :=
  ⟨.single, none, []⟩

def standardCategories : List Category :=
  Category.ofCode 'L' '*' ++ Category.ofCode 'N' '*' ++ Category.ofCode 'C' 'o'

namespace WordOptions

def chosen (o : WordOptions) : List Category :=
  o.categories.getD standardCategories

/-- Whether a code point is one of a token character by its category; one that no list names is. -/
def byCategory (o : WordOptions) (code : Nat) : Bool :=
  match Category.of? code with
  | none => true
  | some category => o.chosen.contains category

/-- Whether an ASCII character is a token character: the last exception for it decides, else its
category. The zero character is none unless an exception says so. -/
def isAsciiToken (o : WordOptions) (c : Char) : Bool :=
  Exception.decide o.exceptions c
    (match o.categories with
    | none => c.isAlphanum
    | some _ => c.toNat ≠ 0 && o.byCategory c.toNat)

/-- Whether a character beyond ASCII is a token character: an exception turns round what its
category says. -/
def isWideToken (o : WordOptions) (c : Char) : Bool :=
  let code := codeOf c
  let listed := o.byCategory code
  if Text.Diacritic.isMark code then listed
  else if listed then !o.exceptions.contains (.separator c)
  else o.exceptions.contains (.token c)

def isToken (o : WordOptions) (c : Char) : Bool :=
  if c.toNat < 128 then o.isAsciiToken c else o.isWideToken c

def folded (o : WordOptions) (c : Char) : List Char :=
  let code := codeOf c
  if code < 128 then [c.toLower]
  else ((o.removal.apply (Text.Folding.code code)).map Char.ofNat).toList

/-- The Unicode rule. Diacritics continue a word even where they are no token characters. -/
def rule (o : WordOptions) : WordRule where
  starts := o.isToken
  continues := fun c => o.isToken c || Text.Diacritic.isMark (codeOf c)
  folded := o.folded

end WordOptions

/-- The ASCII rule with exceptions among the ASCII characters. -/
def asciiRule (exceptions : List Exception) : WordRule :=
  let isToken (c : Char) : Bool :=
    if c.toNat < 128 then Exception.decide exceptions c c.isAlphanum else true
  { starts := isToken
    continues := isToken
    folded := fun c => [c.toLower] }

end TextArchive.Index
