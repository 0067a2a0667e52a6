import TextArchive.Index.Token
import TextArchive.Text.Diacritic
import TextArchive.Text.Folding

/-!
Trigrams as tokens: every three characters that follow each other, folded and without diacritics if
so set up. A zero character ends the text.
-/

set_option autoImplicit false
set_option relaxedAutoImplicit false

namespace TextArchive.Index

structure TrigramOptions where
  caseSensitive : Bool
  removesDiacritics : Bool
deriving DecidableEq, Repr

namespace TrigramOptions

/-- The character that counts for a character; a removed diacritic counts as none. -/
def folded (o : TrigramOptions) (c : Char) : Option Char :=
  if o.caseSensitive then some (Char.ofNat (codeOf c))
  else
    let removal := if o.removesDiacritics then Text.Diacritic.Removal.all else .none
    let code := Text.Folding.code (codeOf c)
    if code < 128 then some (Char.ofNat code) else (removal.apply code).map Char.ofNat

/-- The trigrams of characters with their places; each ends where the next counted character
starts, or at the end. -/
def tokensOf (stop : Nat) : List (Nat × Char) → List Token
  | (i, a) :: (j, b) :: (k, c) :: rest =>
    ⟨Text.Utf8.encode [a, b, c], i, (rest.head?.map (·.1)).getD stop⟩
      :: tokensOf stop ((j, b) :: (k, c) :: rest)
  | _ => []

def tokens (o : TrigramOptions) (text : List Char) : List Token :=
  let read := text.takeWhile (· ≠ '\x00')
  tokensOf read.length ((placed 0 read).filterMap fun p => (o.folded p.2).map (p.1, ·))

end TrigramOptions

end TextArchive.Index
