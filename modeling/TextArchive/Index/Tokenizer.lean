import TextArchive.Index.Stem
import TextArchive.Index.Trigram
import TextArchive.Index.Word
import TextArchive.Query.Parser
import TextArchive.Text.Split

/-!
Tokenizers, and the specification texts that choose and set up one: its name, then names and values
of options, separated by spaces.
-/

set_option autoImplicit false
set_option relaxedAutoImplicit false

namespace TextArchive.Index

open TextArchive.Text (Category)

/-- A way to cut a text into tokens. -/
inductive Tokenizer where
  | words (options : WordOptions)
  | asciiWords (exceptions : List Exception)
  | trigrams (options : TrigramOptions)
  /-- The tokens of another tokenizer with their terms reduced to stems. -/
  | stems (base : Tokenizer)
deriving DecidableEq, Repr

namespace Tokenizer

/-- The tokenizer of a collection that does not name one. -/
def standard : Tokenizer := .words .standard

def tokens (tokenizer : Tokenizer) (text : List Char) : List Token :=
  match tokenizer with
  | .words o => o.rule.tokens text
  | .asciiWords es => (asciiRule es).tokens text
  | .trigrams o => o.tokens text
  | .stems base => (base.tokens text).map fun t => { t with term := Stem.stem t.term }

def terms (tokenizer : Tokenizer) (text : List Char) : List Text.Utf8.Bytes :=
  (tokenizer.tokens text).map Token.kept

inductive SpecificationError where
  /-- Not made of words and spaces. -/
  | malformed
  | unknown (name : String)
  | badOptions
deriving DecidableEq, Repr

/-- The name and the value of each option; none if a value is missing. -/
def pairs : List (List Char) → Option (List (List Char × List Char))
  | [] => some []
  | [_] => none
  | name :: value :: rest => (pairs rest).map ((name, value) :: ·)

def isNamed (option : List Char) (name : String) : Bool :=
  option.map Char.toLower == name.toList

/-- Codes of categories to which no listed code point belongs. -/
def vacantCodes : List (Char × Char) := [('C', 'n'), ('C', 's'), ('L', 'C')]

/-- The categories of a value: those of the code that its first two characters are. -/
def categories? (value : List Char) : Option (List Category) :=
  match value with
  | major :: minor :: _ =>
    match Category.ofCode major minor with
    | [] => if vacantCodes.contains (major, minor) then some [] else none
    | found => some found
  | _ => none

def setWordOption (o : WordOptions) (option value : List Char) : Option WordOptions :=
  if isNamed option "remove_diacritics" then
    match value with
    | ['0'] => some { o with removal := .none }
    | ['1'] => some { o with removal := .single }
    | ['2'] => some { o with removal := .all }
    | _ => none
  else if isNamed option "tokenchars" then
    some { o with exceptions := o.exceptions ++ value.map .token }
  else if isNamed option "separators" then
    some { o with exceptions := o.exceptions ++ value.map .separator }
  else if isNamed option "categories" then
    (categories? value).map fun found => { o with categories := some found }
  else none

def setAsciiOption (exceptions : List Exception) (option value : List Char) :
    Option (List Exception) :=
  let ascii := value.filter fun c => c.toNat < 128
  if isNamed option "tokenchars" then some (exceptions ++ ascii.map .token)
  else if isNamed option "separators" then some (exceptions ++ ascii.map .separator)
  else none

def setTrigramOption (o : TrigramOptions) (option value : List Char) : Option TrigramOptions :=
  if isNamed option "case_sensitive" then
    match value with
    | ['0'] => some { o with caseSensitive := false }
    | ['1'] => some { o with caseSensitive := true }
    | _ => none
  else if isNamed option "remove_diacritics" then
    match value with
    | ['0'] => some { o with removesDiacritics := false }
    | ['1'] => some { o with removesDiacritics := true }
    | ['2'] => some { o with removesDiacritics := true }
    | _ => none
  else none

/-- Trigrams that keep case cannot remove diacritics. -/
def checkTrigrams (o : TrigramOptions) : Option TrigramOptions :=
  if o.caseSensitive && o.removesDiacritics then none else some o

def setAll {α : Type} (set : α → List Char → List Char → Option α) (start : α)
    (arguments : List (List Char)) : Option α :=
  (pairs arguments).bind fun options => options.foldlM (fun o p => set o p.1 p.2) start

def built (tokenizer : Option Tokenizer) : Except SpecificationError Tokenizer :=
  tokenizer.elim (.error .badOptions) .ok

/-- The tokenizer of a name with arguments. The base of stems is the next word and its own
arguments; whatever is wrong with it counts as bad options. -/
def named (name : List Char) (arguments : List (List Char)) : Except SpecificationError Tokenizer :=
  if isNamed name "unicode61" then
    built ((setAll setWordOption .standard arguments).map .words)
  else if isNamed name "ascii" then built ((setAll setAsciiOption [] arguments).map .asciiWords)
  else if isNamed name "trigram" then
    built (((setAll setTrigramOption ⟨false, false⟩ arguments).bind checkTrigrams).map .trigrams)
  else if isNamed name "porter" then
    match arguments with
    | [] => .ok (.stems standard)
    | base :: rest => built ((named base rest).toOption.map .stems)
  else .error (.unknown (String.ofList name))
termination_by arguments.length

def ofSpecification (specification : String) : Except SpecificationError Tokenizer :=
  let chars := specification.toList
  if chars.all fun c => c = ' ' || Query.Token.isWordChar c then
    match Text.Split.words (· = ' ') chars with
    | [] => .error .malformed
    | name :: arguments => named name arguments
  else .error .malformed

end Tokenizer

end TextArchive.Index
