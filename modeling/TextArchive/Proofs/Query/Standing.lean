import TextArchive.Proofs.Query.Word
import TextArchive.Proofs.Text.Decoding
import TextArchive.Record

/-!
Words that stand by themselves. Bytes are cut into pieces before every byte of ASCII, and texts into
words at every character that belongs to none, so a word between two such bytes of a file is a term
of the text that is read.
-/

set_option autoImplicit false
set_option relaxedAutoImplicit false

namespace TextArchive

namespace Index.WordRule

variable (rule : WordRule)

/-- A character that neither continues a word nor starts one. -/
structure Separates (c : Char) : Prop where
  ends : rule.continues c = false
  apart : rule.starts c = false

variable {rule}

private theorem Separates.tokensOf_append {p : Nat × Char} (separates : rule.Separates p.2)
    (xs ys : List (Nat × Char)) :
    rule.tokensOf (xs ++ p :: ys) = rule.tokensOf xs ++ rule.tokensOf ys := by
  have stop : (p :: ys).takeWhile (rule.continues ·.2) = [] ∧
    (p :: ys).dropWhile (rule.continues ·.2) = p :: ys := by
    simp [separates.ends]
  fun_induction rule.tokensOf xs with
  | case1 =>
    rw [List.nil_append, List.nil_append, tokensOf]
    exact if_neg (by simp [separates.apart])
  | case2 start c rest starts ih =>
    have run : (rest ++ p :: ys).takeWhile (rule.continues ·.2) = rest.takeWhile
      (rule.continues ·.2) := by
      rw [List.takeWhile_append]
      split
      · rename_i all
        rw [stop.1, List.append_nil, List.takeWhile_eq_self_iff.mpr]
        exact List.takeWhile_eq_self_iff.mp ((List.takeWhile_prefix _).eq_of_length all)
      · rfl
    have left : (rest ++ p :: ys).dropWhile (rule.continues ·.2) =
        rest.dropWhile (rule.continues ·.2) ++ p :: ys := by
      rw [List.dropWhile_append]
      split
      · rename_i none_left
        rw [stop.2, List.isEmpty_iff.mp none_left, List.nil_append]
      · rfl
    have token : rule.tokenOf start c (rest ++ p :: ys) = rule.tokenOf start c rest := by
      simp only [tokenOf, run]
    rw [List.cons_append, tokensOf, if_pos starts, token, left, ih, List.cons_append]
  | case3 start c rest other ih => rw [List.cons_append, tokensOf, if_neg other, ih]

private theorem tokensOf_append_of_gap {xs ys : List (Nat × Char)}
    (gap : (∀ p ∈ xs.getLast?, rule.Separates p.2) ∨ ∀ p ∈ ys.head?, rule.Separates p.2) :
    rule.tokensOf (xs ++ ys) = rule.tokensOf xs ++ rule.tokensOf ys := by
  rcases gap with last | first
  · rcases List.eq_nil_or_concat xs with rfl | ⟨front, p, rfl⟩
    · rw [tokensOf_nil, List.nil_append, List.nil_append]
    · have separates := last p (by simp)
      have alone := separates.tokensOf_append front []
      rw [tokensOf_nil, List.append_nil] at alone
      rw [List.concat_eq_append, alone, List.append_assoc, List.singleton_append,
        separates.tokensOf_append]
  · cases ys with
    | nil => rw [tokensOf_nil, List.append_nil, List.append_nil]
    | cons p ys =>
      have separates := first p rfl
      have alone := separates.tokensOf_append [] ys
      rw [tokensOf_nil, List.nil_append, List.nil_append] at alone
      rw [alone, separates.tokensOf_append]

end Index.WordRule

private theorem Index.placed_append (start : Nat) (xs ys : List Char) :
    placed start (xs ++ ys) = placed start xs ++ placed (start + xs.length) ys := by
  induction xs generalizing start with
  | nil => rfl
  | cons x xs ih =>
    rw [List.cons_append, placed, ih, placed, List.cons_append, List.length_cons,
      Nat.add_assoc, Nat.add_comm 1]

namespace Query

open TextArchive.Text.Utf8 (Bytes)

/-- Whether a byte is a character of ASCII that belongs to no word. -/
def isGap (b : UInt8) : Bool :=
  b < 0x80 && !(Char.ofNat b.toNat).isAlphanum

/-- Whether a word stands in bytes by itself: at their start or after a gap, and at their end or
before one. -/
def StandsIn (w : List Char) (bytes : Bytes) : Prop :=
  ∃ before after, bytes = before ++ (Text.Utf8.encode w ++ after) ∧
    (∀ b ∈ before.getLast?, isGap b = true) ∧
    ∀ b ∈ after.head?, isGap b = true

private theorem ascii_of_isGap {b : UInt8} (gap : isGap b = true) : b < 0x80 := by
  simp only [isGap, Bool.and_eq_true, decide_eq_true_eq] at gap
  exact gap.1

private theorem separates_of_isGap {b : UInt8} (gap : isGap b = true) :
    Index.WordOptions.standard.rule.Separates (Char.ofNat b.toNat) := by
  have all : ∀ n < 128, (Char.ofNat n).isAlphanum = false →
      Index.WordOptions.standard.rule.continues (Char.ofNat n) = false ∧
        Index.WordOptions.standard.rule.starts (Char.ofNat n) = false := by decide +kernel
  simp only [isGap, Bool.and_eq_true, decide_eq_true_eq, Bool.not_eq_true'] at gap
  obtain ⟨ends, apart⟩ := all b.toNat gap.1 gap.2
  exact ⟨ends, apart⟩

private theorem separates_last {before : Bytes} (gap : ∀ b ∈ before.getLast?, isGap b = true)
    (n : Nat) :
    ∀ p ∈ (Index.placed n (Text.Utf8.decodeDropping before)).getLast?,
      Index.WordOptions.standard.rule.Separates p.2 := by
  intro p here
  rcases List.eq_nil_or_concat before with rfl | ⟨front, b, rfl⟩
  · simp [Index.placed] at here
  · have last := gap b (by simp)
    rw [List.concat_eq_append, Text.Utf8.decodeDropping_append (ascii_of_isGap last),
      Text.Utf8.decodeDropping_nil, Index.placed_append, List.getLast?_append] at here
    cases here
    exact separates_of_isGap last

private theorem separates_head {after : Bytes} (gap : ∀ b ∈ after.head?, isGap b = true) (n : Nat) :
    ∀ p ∈ (Index.placed n (Text.Utf8.decodeDropping after)).head?,
      Index.WordOptions.standard.rule.Separates p.2 := by
  intro p here
  cases after with
  | nil => simp [Index.placed] at here
  | cons b rest =>
    have first := gap b rfl
    have read := Text.Utf8.decodeDropping_append (ascii_of_isGap first) [] rest
    rw [List.nil_append, Text.Utf8.decodeDropping_nil, List.nil_append] at read
    rw [read] at here
    cases here
    exact separates_of_isGap first

/-- A word that stands in bytes by itself has its term among those of the text that is read. -/
theorem IsWord.mem_terms_of_standsIn {w : List Char} (word : IsWord w) {bytes : Bytes}
    (stands : StandsIn w bytes) :
    termOf w ∈ Index.Tokenizer.standard.terms (Text.Utf8.decodeDropping bytes) := by
  obtain ⟨before, after, rfl, last, next⟩ := stands
  rw [Text.Utf8.decodeDropping_encode before word.filled, Index.Tokenizer.terms,
    Index.Tokenizer.standard, Index.Tokenizer.tokens, Index.WordRule.tokens, Index.placed_append,
    Index.placed_append, Index.WordRule.tokensOf_append_of_gap (.inl (separates_last last _)),
    Index.WordRule.tokensOf_append_of_gap
      (.inr (separates_head next _)), List.map_append, List.map_append,
    word.map_kept_tokensOf]
  exact List.mem_append_right _ (List.mem_append_left _ List.mem_cons_self)

end Query

end TextArchive
