import TextArchive.Text.Utf8
import Mathlib.Tactic.SplitIfs

/-!
Reading bytes as UTF-8. Leaving out the ill-formed pieces of a byte string comes to reading it from
the left, one character where an encoded character starts and one byte less where none does. So an
encoded text reads as itself in front of whatever follows it, and what is read can only have been
there.
-/

set_option autoImplicit false
set_option relaxedAutoImplicit false

namespace TextArchive.Text.Utf8

/-- Reading from the left: the character whose encoding comes next is taken, and where no encoding
comes next one byte is left out. Only the encodings of characters count, so that there are no longer
forms, no surrogates and nothing past the last code point. -/
inductive Scans : Bytes → List Char → Prop
  | nil : Scans [] []
  | character (c : Char) {rest : Bytes} {cs : List Char} (further : Scans rest cs) :
      Scans (String.utf8EncodeChar c ++ rest) (c :: cs)
  | skip {b : UInt8} {rest : Bytes} {cs : List Char}
      (nothing : ∀ c, ¬ String.utf8EncodeChar c <+: b :: rest)
      (further : Scans rest cs) : Scans (b :: rest) cs

section Bytes

variable {a b c d : UInt8}

private theorem isTail_iff : isTail b = true ↔ 0x80 ≤ b.toNat ∧ b.toNat ≤ 0xBF := by
  simp [isTail, UInt8.le_iff_toNat_le]

private theorem isSecond_iff : isSecond a b = true ↔ isTail b = true ∧
    (a.toNat = 0xE0 → 0xA0 ≤ b.toNat) ∧
    (a.toNat = 0xED → b.toNat ≤ 0x9F) ∧ (a.toNat = 0xF0 → 0x90 ≤ b.toNat) ∧
    (a.toNat = 0xF4 → b.toNat ≤ 0x8F) := by
  simp only [isSecond, isTail_iff, ← UInt8.toNat_inj, UInt8.le_iff_toNat_le, UInt8.reduceToNat]
  split_ifs <;> simp only [Bool.and_eq_true, decide_eq_true_eq, isTail_iff] <;> omega

private theorem sequenceLength_eq (a : UInt8) : sequenceLength a =
    if a.toNat < 0x80 then 1 else if a.toNat < 0xC2 then 0 else if a.toNat < 0xE0 then 2
    else if a.toNat < 0xF0 then 3 else if a.toNat < 0xF5 then 4 else 0 := by
  simp only [sequenceLength, UInt8.lt_iff_toNat_lt, UInt8.reduceToNat]

private theorem sequenceLength_eq_one : sequenceLength a = 1 ↔ a.toNat < 0x80 := by
  rw [sequenceLength_eq]
  split_ifs <;> simp <;> omega

private theorem sequenceLength_eq_two : sequenceLength a = 2 ↔ 0xC2 ≤ a.toNat ∧ a.toNat < 0xE0 := by
  rw [sequenceLength_eq]
  split_ifs <;> simp <;> omega

private theorem sequenceLength_eq_three : sequenceLength a = 3 ↔ 0xE0 ≤ a.toNat ∧ a.toNat < 0xF0 :=
    by
  rw [sequenceLength_eq]
  split_ifs <;> simp <;> omega

private theorem sequenceLength_eq_four : sequenceLength a = 4 ↔ 0xF0 ≤ a.toNat ∧ a.toNat < 0xF5 :=
    by
  rw [sequenceLength_eq]
  split_ifs <;> simp <;> omega

private theorem sequenceLength_of_isTail (tail : isTail a = true) : sequenceLength a = 0 := by
  have range := isTail_iff.1 tail
  rw [sequenceLength_eq]
  split_ifs <;> omega

private theorem first_of_isTail (tail : isTail a = true) (rest : Bytes) :
    first a rest = (.illFormed, rest) := by
  simp only [first, sequenceLength_of_isTail tail]

end Bytes

/-! ### A sequence that is taken is the encoding of its character -/

section Taken

variable {a b c d : UInt8}

private theorem val_ofNat {n : Nat} (valid : n.isValidChar) : (Char.ofNat n).val.toNat = n := by
  rw [Char.ofNat, dif_pos valid]
  rfl

private theorem encode_one (length : sequenceLength a = 1) :
    String.utf8EncodeChar (Char.ofNat a.toNat) = [a] := by
  have lead := sequenceLength_eq_one.1 length
  have value : (Char.ofNat a.toNat).val.toNat = a.toNat := val_ofNat (.inl (by omega))
  simp only [String.utf8EncodeChar, value]
  rw [if_pos (by omega), UInt8.ofNat_toNat]

private theorem encode_two (length : sequenceLength a = 2) (second : isTail b = true) :
    String.utf8EncodeChar (Char.ofNat (a.toNat % 32 * 64 + tailBits b)) = [a, b] := by
  have lead := sequenceLength_eq_two.1 length
  rw [isTail_iff] at second
  unfold tailBits
  have value := val_ofNat (n := a.toNat % 32 * 64 + b.toNat % 64) (.inl (by omega))
  simp only [String.utf8EncodeChar, value]
  rw [if_neg (by omega), if_pos (by omega)]
  simp only [List.cons.injEq, and_true, ← UInt8.toNat_inj, UInt8.toNat_ofNat']
  omega

-- The bounds on the second byte are what keeps longer forms and surrogates out.
private theorem encode_three (length : sequenceLength a = 3) (second : isSecond a b = true)
    (third : isTail c = true) :
    String.utf8EncodeChar
    (Char.ofNat (a.toNat % 16 * 4096 + tailBits b * 64 + tailBits c)) = [a, b, c] := by
  have lead := sequenceLength_eq_three.1 length
  obtain ⟨tail, notLonger, noSurrogate, -⟩ := isSecond_iff.1 second
  rw [isTail_iff] at tail third
  unfold tailBits
  have value := val_ofNat (n := a.toNat % 16 * 4096 + b.toNat % 64 * 64 + c.toNat % 64) (by
    unfold Nat.isValidChar
    omega)
  simp only [String.utf8EncodeChar, value]
  rw [if_neg (by omega), if_neg (by omega), if_pos (by omega)]
  simp only [List.cons.injEq, and_true, ← UInt8.toNat_inj, UInt8.toNat_ofNat']
  omega

private theorem encode_four (length : sequenceLength a = 4) (second : isSecond a b = true)
    (third : isTail c = true)
    (fourth : isTail d = true) : String.utf8EncodeChar (Char.ofNat
      (a.toNat % 8 * 262144 + tailBits b * 4096 + tailBits c * 64 + tailBits d)) = [a, b, c,
      d] := by
  have lead := sequenceLength_eq_four.1 length
  obtain ⟨tail, -, -, notLonger, notPast⟩ := isSecond_iff.1 second
  rw [isTail_iff] at tail third fourth
  unfold tailBits
  have value := val_ofNat
    (n := a.toNat % 8 * 262144 + b.toNat % 64 * 4096 + c.toNat % 64 * 64 + d.toNat % 64) (by
    unfold Nat.isValidChar
    omega)
  simp only [String.utf8EncodeChar, value]
  rw [if_neg (by omega), if_neg (by omega), if_neg (by omega)]
  simp only [List.cons.injEq, and_true, ← UInt8.toNat_inj, UInt8.toNat_ofNat']
  omega

private theorem eq_encode_of_first {a : UInt8} {rest more : Bytes} {c : Char}
    (taken : first a rest = (.character c, more)) :
    a :: rest = String.utf8EncodeChar c ++ more := by
  fun_cases first a rest with
  | case1 rest length =>
    simp only [first, length, Prod.mk.injEq, Piece.character.injEq] at taken
    rw [← taken.1, encode_one length, ← taken.2, List.singleton_append]
  | case2 b rest length second =>
    simp only [first, length, second, if_true, Prod.mk.injEq, Piece.character.injEq] at taken
    rw [← taken.1, encode_two length second, ← taken.2]
    rfl
  | case4 b length second c rest third =>
    simp only [first, length, second, third, if_true, Prod.mk.injEq, Piece.character.injEq] at taken
    rw [← taken.1, encode_three length second third, ← taken.2]
    rfl
  | case8 b length second c third d rest fourth =>
    simp only [first, length, second, third, fourth, if_true, Prod.mk.injEq,
      Piece.character.injEq] at taken
    rw [← taken.1, encode_four length second third fourth, ← taken.2]
    rfl
  | _ => simp_all [first]

private theorem tail_of_first {a : UInt8} {rest more : Bytes}
    (none : first a rest = (.illFormed, more)) :
    ∃ tail, rest = tail ++ more ∧ ∀ b ∈ tail, isTail b = true := by
  have of_second {a b : UInt8} (second : isSecond a b = true) : isTail b = true :=
    (isSecond_iff.1 second).1
  fun_cases first a rest with
  | case1 rest length => simp [first, length] at none
  | case2 b rest length second => simp [first, length, second] at none
  | case4 b length second c rest third => simp [first, length, second, third] at none
  | case8 b length second c third d rest fourth =>
    simp [first, length, second, third, fourth] at none
  | case5 b length second c rest third =>
    exact ⟨[b], by simp_all [first], by simpa using of_second second⟩
  | case6 b length second => exact ⟨[b], by simp_all [first], by simpa using of_second second⟩
  | case9 b length second c third d rest fourth =>
    exact ⟨[b, c], by simp_all [first], by simpa using ⟨of_second second, third⟩⟩
  | case10 b length second c third =>
    exact ⟨[b, c], by simp_all [first], by simpa using ⟨of_second second, third⟩⟩
  | case11 b length second c rest third => exact ⟨[b], by simp_all [first],
    by simpa using of_second second⟩
  | case12 b length second => exact ⟨[b], by simp_all [first], by simpa using of_second second⟩
  | _ => exact ⟨[], by simp_all [first], by simp⟩

end Taken

/-! ### The encoding of a character is taken -/

section Encoded

variable {v : Nat}

private theorem isTail_ofNat (v : Nat) : isTail (UInt8.ofNat (v % 64 + 128)) = true := by
  rw [isTail_iff, UInt8.toNat_ofNat']
  omega

private theorem tailBits_ofNat (v : Nat) : tailBits (UInt8.ofNat (v % 64 + 128)) = v % 64 := by
  rw [tailBits, UInt8.toNat_ofNat']
  omega

private theorem first_one (high : v ≤ 0x7F) (rest : Bytes) :
    first (UInt8.ofNat v) rest = (.character (Char.ofNat v), rest) := by
  have lead : (UInt8.ofNat v).toNat = v := by
    rw [UInt8.toNat_ofNat']
    omega
  have length : sequenceLength (UInt8.ofNat v) = 1 := sequenceLength_eq_one.2 (by omega)
  simp only [first, length, lead]

private theorem first_two (low : 0x7F < v) (high : v ≤ 0x7FF) (rest : Bytes) :
    first (UInt8.ofNat (v / 64 % 32 + 192)) (UInt8.ofNat (v % 64 + 128) :: rest) =
      (.character (Char.ofNat v), rest) := by
  have lead : (UInt8.ofNat (v / 64 % 32 + 192)).toNat = v / 64 + 192 := by
    rw [UInt8.toNat_ofNat']
    omega
  have length : sequenceLength (UInt8.ofNat (v / 64 % 32 + 192)) = 2 :=
    sequenceLength_eq_two.2 (by omega)
  have value : (v / 64 + 192) % 32 * 64 + v % 64 = v := by omega
  simp only [first, length, isTail_ofNat, if_true, tailBits_ofNat, lead, value]

private theorem first_three (low : 0x7FF < v) (high : v ≤ 0xFFFF) (valid : v < 0xD800 ∨ 0xDFFF < v)
    (rest : Bytes) :
    first (UInt8.ofNat (v / 4096 % 16 + 224))
      (UInt8.ofNat (v / 64 % 64 + 128) :: UInt8.ofNat (v % 64 + 128) :: rest) =
      (.character (Char.ofNat v), rest) := by
  have lead : (UInt8.ofNat (v / 4096 % 16 + 224)).toNat = v / 4096 + 224 := by
    rw [UInt8.toNat_ofNat']
    omega
  have length : sequenceLength (UInt8.ofNat (v / 4096 % 16 + 224)) = 3 :=
    sequenceLength_eq_three.2 (by omega)
  have second : isSecond (UInt8.ofNat (v / 4096 % 16 + 224))
    (UInt8.ofNat (v / 64 % 64 + 128)) = true := by
    refine isSecond_iff.2 ⟨isTail_ofNat _, ?_⟩
    simp only [lead, UInt8.toNat_ofNat']
    omega
  have value : (v / 4096 + 224) % 16 * 4096 + v / 64 % 64 * 64 + v % 64 = v := by omega
  simp only [first, length, second, isTail_ofNat, if_true, tailBits_ofNat, lead, value]

private theorem first_four (low : 0xFFFF < v) (high : v ≤ 0x10FFFF) (rest : Bytes) :
    first (UInt8.ofNat (v / 262144 % 8 + 240))
      (UInt8.ofNat (v / 4096 % 64 + 128) :: UInt8.ofNat (v / 64 % 64 + 128) :: UInt8.ofNat (v % 64 + 128) :: rest) =
      (.character (Char.ofNat v), rest) := by
  have lead : (UInt8.ofNat (v / 262144 % 8 + 240)).toNat = v / 262144 + 240 := by
    rw [UInt8.toNat_ofNat']
    omega
  have length : sequenceLength (UInt8.ofNat (v / 262144 % 8 + 240)) = 4 :=
    sequenceLength_eq_four.2 (by omega)
  have second : isSecond (UInt8.ofNat (v / 262144 % 8 + 240))
    (UInt8.ofNat (v / 4096 % 64 + 128)) = true := by
    refine isSecond_iff.2 ⟨isTail_ofNat _, ?_⟩
    simp only [lead, UInt8.toNat_ofNat']
    omega
  have value : (v / 262144 + 240) % 8 * 262144 + v / 4096 % 64 * 4096 + v / 64 % 64 * 64 + v % 64
    = v := by omega
  simp only [first, length, second, isTail_ofNat, if_true, tailBits_ofNat, lead, value]

theorem first_encode (c : Char) : ∃ a tail, String.utf8EncodeChar c = a :: tail ∧
    (∀ b ∈ tail, isTail b = true) ∧
    ∀ rest, first a (tail ++ rest) = (.character c, rest) := by
  have valid : c.toNat < 0xD800 ∨ 0xDFFF < c.toNat ∧ c.toNat < 0x110000 := c.valid
  have taken : ∃ a tail, String.utf8EncodeChar c = a :: tail ∧ (∀ b ∈ tail, isTail b = true) ∧
      ∀ rest, first a (tail ++ rest) = (.character (Char.ofNat c.toNat), rest) := by
    simp only [String.utf8EncodeChar, Char.toNat_val]
    split_ifs with one two three
    · exact ⟨_, [], rfl, List.forall_mem_nil _, first_one one⟩
    · exact ⟨_, [_], rfl, by simp only [List.forall_mem_singleton, isTail_ofNat],
        first_two (by omega) two⟩
    · refine ⟨_, [_, _], rfl, ?_, first_three (by omega) three (by omega)⟩
      simp only [List.mem_cons, forall_eq_or_imp, List.not_mem_nil, isTail_ofNat, true_and,
        false_imp_iff, implies_true]
    · refine ⟨_, [_, _, _], rfl, ?_, first_four (by omega) (by omega)⟩
      simp only [List.mem_cons, forall_eq_or_imp, List.not_mem_nil, isTail_ofNat, true_and,
        false_imp_iff, implies_true]
  rwa [Char.ofNat_toNat] at taken

/-- A piece is a character if and only if the encoding of one comes next. -/
theorem first_eq_character_iff {a : UInt8} {rest more : Bytes} {c : Char} :
    first a rest = (.character c, more) ↔ a :: rest = String.utf8EncodeChar c ++ more := by
  refine ⟨eq_encode_of_first, fun encoded => ?_⟩
  obtain ⟨lead, tail, encoding, -, taken⟩ := first_encode c
  rw [encoding, List.cons_append, List.cons.injEq] at encoded
  rw [encoded.1, encoded.2, taken]

private theorem not_isTail_of_encode {c : Char} {a : UInt8} {tail : Bytes}
    (encoding : String.utf8EncodeChar c = a :: tail) :
    isTail a = false := by
  obtain ⟨lead, more, same, -, taken⟩ := first_encode c
  obtain ⟨rfl, rfl⟩ := List.cons.inj (same.symm.trans encoding)
  cases continues : isTail lead with
  | false => rfl
  | true => exact absurd (first_of_isTail continues (more ++ []) |>.symm.trans (taken [])) (by simp)

private theorem nothing_append {b : UInt8} {xs : Bytes}
    (nothing : ∀ c, ¬ String.utf8EncodeChar c <+: b :: xs) (c : Char)
    (rest : Bytes) : ∀ c', ¬ String.utf8EncodeChar c' <+: b ::
    (xs ++ (String.utf8EncodeChar c ++ rest)) := by
  intro c' starts
  obtain ⟨a, tail, encoding, all, -⟩ := first_encode c'
  obtain ⟨lead, more, encoded, -, -⟩ := first_encode c
  rw [encoding] at starts
  obtain ⟨rfl, further, together⟩ := List.cons_prefix_cons.1 starts
  have within (reaches : tail <+: xs) : False := nothing c'
    (encoding ▸ List.cons_prefix_cons.2 ⟨rfl, reaches⟩)
  rw [encoded] at together
  rcases List.append_eq_append_iff.1 together with ⟨left, rfl, -⟩ | ⟨beyond, rfl, onward⟩
  · exact within (List.prefix_append _ _)
  · cases beyond with
    | nil => exact within (by simp)
    | cons x beyond =>
      obtain ⟨rfl, -⟩ := List.cons.inj onward
      have continues := all lead (List.mem_append_right xs List.mem_cons_self)
      rw [not_isTail_of_encode encoded] at continues
      exact Bool.false_ne_true continues

end Encoded

/-! ### Reading from the left -/

section Reading

@[simp] theorem decodeDropping_nil : decodeDropping [] = [] := by
  rw [decodeDropping, pieces, List.filterMap_nil]

private theorem decodeDropping_character (c : Char) (rest : Bytes) :
    decodeDropping (String.utf8EncodeChar c ++ rest) = c :: decodeDropping rest := by
  obtain ⟨a, tail, encoding, -, taken⟩ := first_encode c
  rw [encoding, List.cons_append, decodeDropping, pieces, taken]
  rfl

private theorem decodeDropping_tail {tail : Bytes} (all : ∀ b ∈ tail, isTail b = true)
    (rest : Bytes) :
    decodeDropping (tail ++ rest) = decodeDropping rest := by
  induction tail with
  | nil => rfl
  | cons b tail ih =>
    rw [List.forall_mem_cons] at all
    rw [List.cons_append, decodeDropping, pieces, first_of_isTail all.1]
    exact ih all.2

private theorem decodeDropping_skip {b : UInt8} {rest : Bytes}
    (nothing : ∀ c, ¬ String.utf8EncodeChar c <+: b :: rest) :
    decodeDropping (b :: rest) = decodeDropping rest := by
  cases piece : first b rest with
  | mk found more =>
    cases found with
    | character c => exact absurd ⟨more, (first_eq_character_iff.1 piece).symm⟩ (nothing c)
    | illFormed =>
      obtain ⟨tail, rfl, all⟩ := tail_of_first piece
      rw [decodeDropping_tail all, decodeDropping, pieces, piece]
      rfl

private theorem Scans.eq {bytes : Bytes} {cs : List Char} (scans : Scans bytes cs) :
    cs = decodeDropping bytes := by
  induction scans with
  | nil => rw [decodeDropping_nil]
  | character c further ih => rw [decodeDropping_character, ih]
  | skip nothing further ih => rw [decodeDropping_skip nothing, ih]

theorem scans_decodeDropping (bytes : Bytes) : Scans bytes (decodeDropping bytes) := by
  induction size : bytes.length using Nat.strongRecOn generalizing bytes with
  | ind n ih =>
    cases bytes with
    | nil => exact decodeDropping_nil.symm ▸ .nil
    | cons b rest =>
      subst size
      by_cases encoded : ∃ c, String.utf8EncodeChar c <+: b :: rest
      · obtain ⟨c, more, together⟩ := encoded
        rw [← together, decodeDropping_character]
        refine .character c (ih _ ?_ more rfl)
        rw [← together, List.length_append]
        exact Nat.lt_add_of_pos_left (List.length_pos_iff.2 String.utf8EncodeChar_ne_nil)
      · have nothing := not_exists.1 encoded
        rw [decodeDropping_skip nothing]
        exact .skip nothing (ih _ (Nat.lt_succ_self _) rest rfl)

theorem scans_iff {bytes : Bytes} {cs : List Char} : Scans bytes cs ↔ cs = decodeDropping bytes :=
  ⟨Scans.eq, fun same => same ▸ scans_decodeDropping bytes⟩

private theorem decodeDropping_append_character (xs : Bytes) (c : Char) (rest : Bytes) :
    decodeDropping (xs ++ (String.utf8EncodeChar c ++ rest)) = decodeDropping xs ++
    c :: decodeDropping rest := by
  have scans := scans_decodeDropping xs
  generalize decodeDropping xs = cs at scans ⊢
  induction scans with
  | nil => rw [List.nil_append, decodeDropping_character, List.nil_append]
  | character c' further ih =>
    rw [List.append_assoc, decodeDropping_character, ih, List.cons_append]
  | skip nothing further ih => rw [List.cons_append,
    decodeDropping_skip (nothing_append nothing c rest), ih]

theorem decodeDropping_append {b : UInt8} (ascii : b < 0x80) (xs rest : Bytes) :
    decodeDropping (xs ++ b :: rest) = decodeDropping xs ++
    Char.ofNat b.toNat :: decodeDropping rest := by
  rw [← decodeDropping_append_character,
    encode_one (sequenceLength_eq_one.2 ascii), List.singleton_append]

end Reading

/-! ### Encoded texts -/

section Encodings

@[simp] theorem encode_nil : encode [] = [] :=
  rfl

@[simp] theorem encode_cons (c : Char) (cs : List Char) :
    encode (c :: cs) = String.utf8EncodeChar c ++ encode cs :=
  List.flatMap_cons

theorem encode_append (s t : List Char) : encode (s ++ t) = encode s ++ encode t :=
  List.flatMap_append

theorem decodeDropping_encode_append (s : List Char) (more : Bytes) :
    decodeDropping (encode s ++ more) = s ++ decodeDropping more := by
  induction s with
  | nil => rfl
  | cons c s ih =>
    rw [encode_cons, List.append_assoc, decodeDropping_character, ih, List.cons_append]

theorem decodeDropping_encode_self (s : List Char) : decodeDropping (encode s) = s := by
  have alone := decodeDropping_encode_append s []
  rwa [List.append_nil, decodeDropping_nil, List.append_nil] at alone

/-- A text that is not empty is read as it is, whatever stands before it. -/
theorem decodeDropping_encode (xs : Bytes) {w : List Char} (filled : w ≠ []) (rest : Bytes) :
    decodeDropping (xs ++ (encode w ++ rest)) =
    decodeDropping xs ++ (w ++ decodeDropping rest) := by
  obtain ⟨c, w, rfl⟩ := List.exists_cons_of_ne_nil filled
  rw [encode_cons, List.append_assoc, decodeDropping_append_character,
    decodeDropping_encode_append, List.cons_append]

theorem Scans.encode_sublist {bytes : Bytes} {cs : List Char} (scans : Scans bytes cs) :
    (encode cs).Sublist bytes := by
  induction scans with
  | nil => exact .slnil
  | character c further ih => exact encode_cons c _ ▸ ih.append_left _
  | skip nothing further ih => exact ih.cons _

private theorem Scans.character_stands {bytes : Bytes} {cs : List Char} (scans : Scans bytes cs)
    {front back : List Char} {c : Char} (found : cs = front ++ c :: back) :
    ∃ before after, bytes = before ++ String.utf8EncodeChar c ++ after ∧
      decodeDropping before = front ∧ decodeDropping after = back := by
  induction scans generalizing front with
  | nil => cases front <;> cases found
  | character c' further ih =>
    cases front with
    | nil =>
      obtain ⟨rfl, rfl⟩ := List.cons.inj found
      exact ⟨[], _, rfl, decodeDropping_nil, further.eq.symm⟩
    | cons first front =>
      obtain ⟨rfl, later⟩ := List.cons.inj found
      obtain ⟨before, after, rfl, left, right⟩ := ih later
      exact ⟨String.utf8EncodeChar c' ++ before, after, by simp only [List.append_assoc],
        by rw [decodeDropping_character, left], right⟩
  | @skip b rest cs nothing further ih =>
    obtain ⟨before, after, rfl, left, right⟩ := ih found
    refine ⟨b :: before, after, rfl, ?_, right⟩
    have stillNothing : ∀ c', ¬ String.utf8EncodeChar c' <+: b :: before := by
      intro c' starts
      refine nothing c' (starts.trans ?_)
      rw [List.append_assoc]
      exact List.prefix_append (b :: before) _
    rw [decodeDropping_skip stillNothing, left]

private theorem eq_of_encode_starts {c c' : Char}
    (starts : String.utf8EncodeChar c' <+: String.utf8EncodeChar c) : c' = c := by
  obtain ⟨a, tail, encoding, -, taken⟩ := first_encode c
  obtain ⟨more, together⟩ := starts
  rw [encoding] at together
  have other := first_eq_character_iff.2 together.symm
  rw [← List.append_nil tail, taken] at other
  exact (Piece.character.inj (Prod.mk.inj other).1).symm

private theorem decodeDropping_cut_character {c : Char} {n : Nat}
    (inside : n < (String.utf8EncodeChar c).length) :
    decodeDropping ((String.utf8EncodeChar c).take n) = [] := by
  have incomplete : ∀ c', ¬ String.utf8EncodeChar c' <+: (String.utf8EncodeChar c).take n := by
    intro c' starts
    obtain rfl := eq_of_encode_starts (starts.trans <| List.take_prefix n _)
    have short := starts.length_le
    rw [List.length_take] at short
    omega
  obtain ⟨a, tail, encoding, all, -⟩ := first_encode c
  rw [encoding] at incomplete ⊢
  cases n with
  | zero => rw [List.take_zero, decodeDropping_nil]
  | succ n =>
    rw [List.take_succ_cons] at incomplete ⊢
    have continuing : ∀ b ∈ tail.take n, isTail b = true := fun b member =>
      all b (List.mem_of_mem_take member)
    rw [decodeDropping_skip incomplete, ← List.append_nil (tail.take n),
      decodeDropping_tail continuing, decodeDropping_nil]

/-- The start of some bytes reads as a start of what they read as. -/
theorem Scans.start {bytes : Bytes} {cs : List Char} (scans : Scans bytes cs) (n : Nat) :
    decodeDropping (bytes.take n) <+: cs := by
  induction scans generalizing n with
  | nil => simp only [List.take_nil, decodeDropping_nil, List.nil_prefix]
  | @character c rest cs further ih =>
    rcases Nat.lt_or_ge n (String.utf8EncodeChar c).length with inside | past
    · rw [List.take_append_of_le_length (Nat.le_of_lt inside), decodeDropping_cut_character inside]
      exact List.nil_prefix
    · rw [List.take_append, List.take_of_length_le past, decodeDropping_character]
      exact List.cons_prefix_cons.2 ⟨rfl, ih _⟩
  | @skip b rest cs nothing further ih =>
    cases n with
    | zero =>
      rw [List.take_zero, decodeDropping_nil]
      exact List.nil_prefix
    | succ n =>
      have stillNothing : ∀ c, ¬ String.utf8EncodeChar c <+: b :: rest.take n := fun c starts =>
        nothing c (starts.trans (List.cons_prefix_cons.2 ⟨rfl, List.take_prefix n rest⟩))
      rw [List.take_succ_cons, decodeDropping_skip stillNothing]
      exact ih n

/-- The text of a byte string with all that is ill-formed left out is what reading it from the left
gives, and nothing else is. So an encoded text is read back and what follows it is read as it would
be alone; the encoding of what is read is a subsequence of the bytes; and a character, the
replacement character too, is read only where its encoding stands. -/
theorem decodeDropping_left_to_right (bytes : Bytes) :
    (∀ cs, Scans bytes cs ↔ cs = decodeDropping bytes) ∧
      (∀ s, decodeDropping (encode s) = s) ∧
      (∀ s more, decodeDropping (encode s ++ more) = decodeDropping (encode s) ++ decodeDropping more) ∧
      (encode (decodeDropping bytes)).Sublist bytes ∧
      ∀ front c back, decodeDropping bytes = front ++ c :: back →
        ∃ before after, bytes = before ++ encode [c] ++ after ∧ decodeDropping before = front ∧
          decodeDropping after = back := by
  refine ⟨fun cs => scans_iff, decodeDropping_encode_self, fun s more => ?_,
    (scans_decodeDropping bytes).encode_sublist, fun front c back found => ?_⟩
  · rw [decodeDropping_encode_append, decodeDropping_encode_self]
  · have one : encode [c] = String.utf8EncodeChar c := by
      rw [encode_cons, encode_nil, List.append_nil]
    exact one ▸ (scans_decodeDropping bytes).character_stands found

-- a sequence cut off by a letter, and half of a surrogate pair
example : decodeDropping [0xE2, 0x82, 0x61, 0xED, 0xA0, 0x80, 0xC3, 0xA9] = ['a', 'é'] := by
  decide +kernel

end Encodings

end TextArchive.Text.Utf8
