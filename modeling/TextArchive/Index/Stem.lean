import TextArchive.Text.Utf8

/-!
English word stems. Suffixes are taken off or shortened in five steps; whether a step applies hangs
on the measure of what stands before the suffix, the number of its turns from vowels to consonants.
-/

set_option autoImplicit false
set_option relaxedAutoImplicit false

namespace TextArchive.Index.Stem

open TextArchive.Text.Utf8 (Bytes)

def byte (c : Char) : UInt8 := c.toUInt8

def bytes (s : String) : Bytes := s.toList.map byte

/-- Whether a letter is a vowel; a y is one after a consonant. -/
def isVowel (afterConsonant : Bool) (b : UInt8) : Bool :=
  b = byte 'a' || b = byte 'e' || b = byte 'i' || b = byte 'o' || b = byte 'u'
    || (afterConsonant && b = byte 'y')

/-- For each letter, whether it is a consonant, given whether one stands before. -/
def consonants (afterConsonant : Bool) : Bytes → List Bool
  | [] => []
  | b :: r =>
    let isConsonant := !isVowel afterConsonant b
    isConsonant :: consonants isConsonant r

/-- The number of times that a consonant follows a vowel. -/
def turns : List Bool → Nat
  | false :: true :: r => turns (true :: r) + 1
  | _ :: r => turns r
  | [] => 0

def measure (w : Bytes) : Nat :=
  turns (consonants false w)

/-- Whether a stem holds a vowel; a y is one unless it comes first. -/
def hasVowel : Bytes → Bool
  | [] => false
  | b :: r => isVowel false b || r.any (isVowel true)

/-- Whether a stem ends in consonant, vowel, consonant, the last of them not w, x or y. -/
def endsShort (w : Bytes) : Bool :=
  match w.getLast? with
  | none => false
  | some b =>
    b ≠ byte 'w' && b ≠ byte 'x' && b ≠ byte 'y'
      && (consonants false w).reverse.take 3 = [true, false, true]

/-- The part before a suffix, if there is one and it is not empty. -/
def before? (suffix : Bytes) (w : Bytes) : Option Bytes :=
  if suffix.length < w.length && suffix.isSuffixOf w then some
    (w.take (w.length - suffix.length)) else none

structure Rule where
  suffix : Bytes
  replacement : Bytes
  applies : Bytes → Bool

def rule (applies : Bytes → Bool) (suffix replacement : String) : Rule :=
  ⟨bytes suffix, bytes replacement, applies⟩

/-- Apply the first rule whose suffix the word has. The result says whether it changed the word. -/
def applyFirst (rules : List Rule) (w : Bytes) : Bytes × Bool :=
  match rules.findSome? fun r => (before? r.suffix w).map fun stem => (r, stem) with
  | none => (w, false)
  | some (r, stem) => if r.applies stem then (stem ++ r.replacement, true) else (w, false)

def plural (w : Bytes) : Bytes :=
  match w.reverse with
  | s :: e :: r =>
    if s = byte 's' then
      if e = byte 'e' then
        match r with
        | c :: d :: _ :: _ =>
          if (c = byte 's' && d = byte 's') || c = byte 'i' then r.reverse else w.dropLast
        | [c, _] => if c = byte 'i' then r.reverse else w.dropLast
        | _ => w.dropLast
      else if e = byte 's' then w
      else w.dropLast
    else w
  | _ => w

def participleRules : List Rule :=
  [rule hasVowel "ed" "", rule hasVowel "ing" ""]

/-- What is mended after such an ending has been taken off. -/
def mendRules : List Rule :=
  [rule (fun _ => true) "at" "ate", rule (fun _ => true) "bl" "ble",
    rule (fun _ => true) "iz" "ize"]

def mend (w : Bytes) : Bytes :=
  match applyFirst mendRules w with
  | (mended, true) => mended
  | (_, false) =>
    match w.reverse with
    | c :: d :: _ =>
      if c = d && !isVowel false c && c ≠ byte 'l' && c ≠ byte 's' && c ≠ byte 'z' then w.dropLast
      else if measure w = 1 && endsShort w then w ++ [byte 'e']
      else w
    | _ => if measure w = 1 && endsShort w then w ++ [byte 'e'] else w

def participle (w : Bytes) : Bytes :=
  match before? (bytes "eed") w with
  | some stem => if 0 < measure stem then stem ++ bytes "ee" else w
  | none =>
    match applyFirst participleRules w with
    | (stem, true) => mend stem
    | (_, false) => w

/-- A final y after a vowel somewhere before becomes an i. -/
def finalY (w : Bytes) : Bytes :=
  if w.getLast? = some (byte 'y') && hasVowel w.dropLast then w.dropLast ++ [byte 'i'] else w

/-- Whether the measure is positive. -/
def long (w : Bytes) : Bool := 0 < measure w

/-- Whether the measure is at least two. -/
def longer (w : Bytes) : Bool := 1 < measure w

def doubleRules : List Rule :=
  [rule long "ational" "ate", rule long "tional" "tion", rule long "enci" "ence",
   rule long "anci" "ance", rule long "izer" "ize", rule long "logi" "log", rule long "bli" "ble",
   rule long "alli" "al", rule long "entli" "ent", rule long "eli" "e", rule long "ousli" "ous",
   rule long "ization" "ize", rule long "ation" "ate", rule long "ator" "ate",
   rule long "alism" "al", rule long "iveness" "ive", rule long "fulness" "ful",
   rule long "ousness" "ous", rule long "aliti" "al", rule long "iviti" "ive",
   rule long "biliti" "ble"]

def shorteningRules : List Rule :=
  [rule long "ical" "ic", rule long "ness" "", rule long "icate" "ic", rule long "iciti" "ic",
   rule long "ful" "", rule long "ative" "", rule long "alize" "al"]

/-- Whether a stem of measure two or more ends in s or t. -/
def longerInST (w : Bytes) : Bool :=
  (w.getLast? = some (byte 's') || w.getLast? = some (byte 't')) && longer w

def removalRules : List Rule :=
  [rule longer "al" "", rule longer "ance" "", rule longer "ence" "", rule longer "er" "",
   rule longer "ic" "", rule longer "able" "", rule longer "ible" "", rule longer "ant" "",
   rule longer "ement" "", rule longer "ment" "", rule longer "ent" "", rule longerInST "ion" "",
   rule longer "ou" "", rule longer "ism" "", rule longer "ate" "", rule longer "iti" "",
   rule longer "ous" "", rule longer "ive" "", rule longer "ize" ""]

def finalE (w : Bytes) : Bytes :=
  let stem := w.dropLast
  if w.getLast? = some (byte 'e') && (longer stem ||
    (measure stem = 1 && !endsShort stem)) then stem
  else w

def doubleL (w : Bytes) : Bytes :=
  if (bytes "ll").isSuffixOf w && longer w.dropLast then w.dropLast else w

/-- The stem of a term; terms of fewer than 3 or more than 64 bytes stay. -/
def stem (w : Bytes) : Bytes :=
  if w.length < 3 || 64 < w.length then w
  else
    let w := finalY (participle (plural w))
    let w := (applyFirst doubleRules w).1
    let w := (applyFirst shorteningRules w).1
    let w := (applyFirst removalRules w).1
    doubleL (finalE w)

end TextArchive.Index.Stem
