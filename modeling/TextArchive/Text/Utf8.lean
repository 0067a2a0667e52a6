/-!
UTF-8: the encoding of characters as bytes, and reading bytes that need not be well formed. Reading
cuts bytes into characters and maximal ill-formed pieces; a reader then drops the latter or puts a
replacement character in their place.
-/

set_option autoImplicit false
set_option relaxedAutoImplicit false

namespace TextArchive.Text.Utf8

abbrev Bytes := List UInt8

/-- What stands at the front of a byte string: a character, or bytes that begin none. -/
inductive Piece where
  | character (c : Char)
  | illFormed
deriving DecidableEq, Repr

def encode (cs : List Char) : Bytes :=
  cs.flatMap String.utf8EncodeChar

/-- Whether a byte may stand after the second place of a sequence. -/
def isTail (b : UInt8) : Bool :=
  0x80 ≤ b && b ≤ 0xBF

/-- Whether a byte may stand in the second place after a given first byte; overlong forms,
surrogates and values past the last code point are excluded here. -/
def isSecond (lead b : UInt8) : Bool :=
  if lead = 0xE0 then 0xA0 ≤ b && b ≤ 0xBF
  else if lead = 0xED then 0x80 ≤ b && b ≤ 0x9F
  else if lead = 0xF0 then 0x90 ≤ b && b ≤ 0xBF
  else if lead = 0xF4 then 0x80 ≤ b && b ≤ 0x8F
  else isTail b

/-- The payload of a byte after the first. -/
def tailBits (b : UInt8) : Nat :=
  b.toNat % 64

/-- How many bytes a sequence with this first byte has; zero if no sequence starts with it. -/
def sequenceLength (lead : UInt8) : Nat :=
  if lead < 0x80 then 1
  else if lead < 0xC2 then 0
  else if lead < 0xE0 then 2
  else if lead < 0xF0 then 3
  else if lead < 0xF5 then 4
  else 0

/-- The first piece of a non-empty byte string, and what follows it. An ill-formed piece is as long
as it could still have been the start of a sequence, and at least one byte. -/
def first (a : UInt8) (rest : Bytes) : Piece × Bytes :=
  match sequenceLength a, rest with
  | 1, rest => (.character (Char.ofNat a.toNat), rest)
  | 2, b :: rest =>
    if isTail b then (.character (Char.ofNat ((a.toNat % 32) * 64 + tailBits b)), rest)
    else (.illFormed, b :: rest)
  | 3, b :: rest =>
    if isSecond a b then
      match rest with
      | c :: rest =>
        if isTail c then
          (.character (Char.ofNat ((a.toNat % 16) * 4096 + tailBits b * 64 + tailBits c)), rest)
        else (.illFormed, c :: rest)
      | [] => (.illFormed, [])
    else (.illFormed, b :: rest)
  | 4, b :: rest =>
    if isSecond a b then
      match rest with
      | c :: rest =>
        if isTail c then
          match rest with
          | d :: rest =>
            if isTail d then
              (.character (Char.ofNat ((a.toNat % 8) * 262144 + tailBits b * 4096
                + tailBits c * 64 + tailBits d)), rest)
            else (.illFormed, d :: rest)
          | [] => (.illFormed, [])
        else (.illFormed, c :: rest)
      | [] => (.illFormed, [])
    else (.illFormed, b :: rest)
  | _, rest => (.illFormed, rest)

private theorem length_first_le (a : UInt8) (rest : Bytes) :
    (first a rest).2.length ≤ rest.length := by
  unfold first
  split
  · exact Nat.le_refl _
  · split <;> simp
  · split
    · split
      · split <;> simp
        omega
      · simp
    · simp
  · split
    · split
      · split
        · split
          · split <;> simp
            omega
          · simp
        · simp
      · simp
    · simp
  · exact Nat.le_refl _

def pieces : Bytes → List Piece
  | [] => []
  | a :: rest => (first a rest).1 :: pieces (first a rest).2
termination_by bytes => bytes.length
decreasing_by
  have := length_first_le a rest
  simp
  omega

def Piece.character? : Piece → Option Char
  | .character c => some c
  | .illFormed => none

def Piece.orReplacement (p : Piece) : Char :=
  p.character?.getD '\ufffd'

/-- The text of a byte string with all that is ill-formed left out. -/
def decodeDropping (bytes : Bytes) : List Char :=
  (pieces bytes).filterMap Piece.character?

/-- The text of a byte string with one replacement character for each ill-formed piece. -/
def decodeReplacing (bytes : Bytes) : List Char :=
  (pieces bytes).map Piece.orReplacement

def ofString (s : String) : Bytes :=
  encode s.toList

end TextArchive.Text.Utf8
