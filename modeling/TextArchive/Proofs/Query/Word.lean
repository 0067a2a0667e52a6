import Mathlib.Data.List.TakeWhile
import TextArchive.Proofs.Query.Occurrence
import TextArchive.Search

/-!
Queries of one word: they are read as a phrase of the terms of the word. Letters and digits of ASCII
alone are one term, which is found in a document where one of its columns has the term.
-/

set_option autoImplicit false
set_option relaxedAutoImplicit false

namespace TextArchive

theorem Index.map_placed (cs : List Char) (start : Nat) :
    (Index.placed start cs).map (·.2) = cs := by
  induction cs generalizing start with
  | nil => rfl
  | cons c cs ih => exact congrArg (c :: ·) (ih (start + 1))

@[simp] theorem Index.WordRule.tokensOf_nil (rule : WordRule) : rule.tokensOf [] = [] := by
  rw [tokensOf]

namespace Query

open TextArchive.Index (Document Position Tokenizer)
open TextArchive.Text.Utf8 (Bytes)

/-- A word as it can stand in a query without quotes. -/
structure IsBareword (w : List Char) : Prop where
  filled : w ≠ []
  plain : ∀ c ∈ w, Token.isWordChar c = true
  free : ∀ op : Operator, op.word ≠ w

/-- A word of letters and digits of ASCII that is no operator. -/
structure IsWord (w : List Char) : Prop where
  filled : w ≠ []
  plain : ∀ c ∈ w, c.isAlphanum = true
  free : ∀ op : Operator, op.word ≠ w

instance (w : List Char) : Decidable (IsWord w) :=
  decidable_of_iff
    (!w.isEmpty && w.all (·.isAlphanum) && [Operator.or, .and, .not].all (·.word ≠ w))
    { mp := fun h => by
        simp only [Bool.and_eq_true, Bool.not_eq_true', List.isEmpty_eq_false_iff, List.all_eq_true,
          decide_eq_true_eq] at h
        exact ⟨h.1.1, h.1.2, fun op => h.2 op (by cases op <;> simp)⟩
      mpr := fun word => by
        simp only [Bool.and_eq_true, Bool.not_eq_true', List.isEmpty_eq_false_iff, List.all_eq_true,
          decide_eq_true_eq]
        exact ⟨⟨word.filled, word.plain⟩, fun op _ => word.free op⟩ }

/-- The term under which a word is kept: its lower case, cut to the greatest length. -/
def termOf (w : List Char) : Bytes :=
  (Text.Utf8.encode (w.map Char.toLower)).take Index.longestTerm

section Characters

variable {c : Char} (plain : c.isAlphanum = true)
include plain

private theorem toNat_of_isAlphanum :
    ((65 ≤ c.toNat ∧ c.toNat ≤ 90) ∨ (97 ≤ c.toNat ∧ c.toNat ≤ 122)) ∨
    (48 ≤ c.toNat ∧ c.toNat ≤ 57) := by
  change (decide (65 ≤ c.val ∧ c.val ≤ 90) || (decide (97 ≤ c.val) && decide (c.val ≤ 122)) ||
    (decide (48 ≤ c.val) && decide (c.val ≤ 57))) = true at plain
  simp only [Bool.or_eq_true, Bool.and_eq_true, decide_eq_true_eq, UInt32.le_iff_toNat_le] at plain
  exact plain

private theorem isWordChar_of_isAlphanum : Token.isWordChar c = true := by
  simp [Token.isWordChar, plain]

private theorem isBlank_of_isAlphanum : Text.isBlank c = false := by
  have code := toNat_of_isAlphanum plain
  refine Bool.eq_false_iff.mpr fun blank => ?_
  simp only [Text.isBlank, Bool.or_eq_true, Bool.and_eq_true, decide_eq_true_eq] at blank
  omega

end Characters

private theorem isSpace_of_isWordChar {c : Char} (plain : Token.isWordChar c = true) :
    Token.isSpace c = false := by
  refine Bool.eq_false_iff.mpr fun space => ?_
  simp only [Token.isSpace, Bool.or_eq_true, decide_eq_true_eq] at space
  rcases space with ((rfl | rfl) | rfl) | rfl <;> exact absurd plain (by decide)

namespace IsBareword

variable {w : List Char} (word : IsBareword w)
include word

private theorem untilZero : Search.untilZero w = w := by
  refine List.takeWhile_eq_self_iff.mpr fun c member => ?_
  have other : c ≠ '\x00' := by
    rintro rfl
    exact absurd (word.plain _ member) (by decide)
  simpa using other

private theorem ofText : Token.ofText w = [.word w] := by
  obtain ⟨c, cs, rfl⟩ := List.exists_cons_of_ne_nil word.filled
  have first := word.plain c List.mem_cons_self
  have others : ∀ d ∈ cs, Token.isWordChar d = true := fun d member =>
    word.plain d (List.mem_cons_of_mem _ member)
  have named : Token.ofWord (c :: cs) = .word (c :: cs) := by
    have unnamed : [Operator.or, Operator.and,
      Operator.not].find? (fun op => op.word = c :: cs) = none :=
      List.find?_eq_none.mpr fun op _ => by simpa using word.free op
    rw [Token.ofWord, unnamed]
  rw [Token.ofText, if_neg (by simp [isSpace_of_isWordChar first]), if_pos first,
    List.takeWhile_eq_self_iff.mpr others, List.dropWhile_eq_nil_iff.mpr
      others, named, Token.ofText]

end IsBareword

namespace IsWord

variable {w : List Char} (word : IsWord w)
include word

theorem trim : Text.trim w = w :=
  Text.trim_append (fun _ none => absurd none List.not_mem_nil) fun c member =>
    isBlank_of_isAlphanum (word.plain c member)

theorem isBareword : IsBareword w :=
  ⟨word.filled, fun c member => isWordChar_of_isAlphanum (word.plain c member), word.free⟩

private theorem token_rule {c : Char} (member : c ∈ w) :
    Index.WordOptions.standard.isToken c = true ∧
    Index.WordOptions.standard.folded c = [c.toLower] := by
  have plain := word.plain c member
  have code := toNat_of_isAlphanum plain
  have ascii : Index.codeOf c < 128 := by
    rw [Index.codeOf, if_neg (by simp only [Bool.or_eq_true, decide_eq_true_eq]; omega)]
    omega
  constructor
  · rw [Index.WordOptions.isToken, if_pos (show c.toNat < 128 by omega)]
    exact plain
  · simp only [Index.WordOptions.folded]
    rw [if_pos ascii]

theorem map_kept_tokensOf (start : Nat) :
    (Index.WordOptions.standard.rule.tokensOf (Index.placed start w)).map
    Index.Token.kept = [termOf w] := by
  obtain ⟨c, cs, rfl⟩ := List.exists_cons_of_ne_nil word.filled
  have continued : ∀ p ∈ Index.placed (start + 1) cs,
    Index.WordOptions.standard.rule.continues p.2 = true := by
    intro p member
    have inside : p.2 ∈ cs := Index.map_placed cs (start + 1) ▸ List.mem_map_of_mem member
    have token := (word.token_rule (List.mem_cons_of_mem _ inside)).1
    simp [Index.WordOptions.rule, token]
  have folded : ∀ l : List Char, l ⊆ c :: cs →
      l.flatMap Index.WordOptions.standard.folded = l.map Char.toLower := by
    intro l inside
    rw [List.map_eq_flatMap, List.flatMap_def, List.flatMap_def]
    exact congrArg List.flatten
      (List.map_congr_left fun d member => (word.token_rule (inside member)).2)
  have first : Index.WordOptions.standard.rule.starts c = true :=
    (word.token_rule List.mem_cons_self).1
  rw [Index.placed, Index.WordRule.tokensOf, if_pos first, List.dropWhile_eq_nil_iff.mpr continued,
    Index.WordRule.tokensOf_nil, Index.WordRule.tokenOf, List.takeWhile_eq_self_iff.mpr
      continued, Index.map_placed]
  simp only [List.map_cons, List.map_nil, Index.Token.kept]
  rw [show Index.WordOptions.standard.rule.folded = Index.WordOptions.standard.folded from rfl,
    folded _ (List.Subset.refl _)]
  rfl

theorem terms : Tokenizer.standard.terms w = [termOf w] :=
  word.map_kept_tokensOf 0

end IsWord

def single (term : Bytes) : Expr :=
  ofTerms [term]

section Parsing

private theorem markLast_false (terms : List Bytes) :
    Parser.markLast false (terms.map (Term.mk · false)) = terms.map (Term.mk · false) := by
  induction terms with
  | nil => rfl
  | cons term terms ih =>
    cases terms with
    | nil => rfl
    | cons next rest => exact congrArg (Term.mk term false :: ·) ih

variable (context : Parser.Context) (w : List Char)

private theorem phrase_word (depth : Nat) (room : depth + 1 < Parser.roomLimit) :
    Parser.phrase context depth false [.word w] = .ok (.ofTerms (context.terms w), []) := by
  have opened : ∀ n, n < Parser.roomLimit → Parser.openOne n = .ok (n + 1) :=
    fun n less => if_pos less
  simp only [Parser.phrase, Parser.expectString, Parser.star, opened depth (by omega),
    opened (depth + 1) room, Except.map, bind, Except.bind, Token.content, markLast_false,
      Parser.phraseTail, List.length_nil]
  rfl

private theorem group_word (depth : Nat) (room : depth + 1 < Parser.roomLimit) :
    Parser.group context depth [.word w] =
      .ok (.ofTerms (context.terms w), []) := by
  simp only [Parser.group, phrase_word context w depth room, bind, Except.bind]
  rfl

private theorem whole_word : Parser.whole context [.word w] = .ok (ofTerms (context.terms w)) := by
  have read := group_word context w 0 (by decide)
  have alone : ∀ g : Group, Expr.allOf g [] = .group g := by
    intro g
    rw [Expr.allOf, List.filter_cons, List.filter_nil]
    cases g.isEmpty <;> rfl
  have operand : ∀ fuel, Parser.operand context (fuel + 1) 0 [.word w] = .ok
    (ofTerms (context.terms w), []) := by
    intro fuel
    simp only [Parser.operand, Parser.selector, bind, Except.bind, Parser.inColumns,
      Option.isSome_none, Bool.false_eq_true, if_false, read, List.length_nil, Parser.moreGroups,
      alone]
    rfl
  simp only [Parser.whole, List.length_singleton, Parser.operators, Parser.chain, operand,
    Parser.chainTail, bind, Except.bind]
  rfl

end Parsing

theorem IsBareword.expression {w : List Char} (word : IsBareword w) (tokenizer : Tokenizer) :
    Search.expression tokenizer w = .ok (ofTerms (tokenizer.terms w)) := by
  rw [Search.expression, word.untilZero]
  split
  · rename_i rest _
    exact absurd (word.plain '*' List.mem_cons_self) (by decide)
  · rw [word.ofText, whole_word]

/-- A query of one word asks for its term. -/
theorem IsWord.expression {w : List Char} (word : IsWord w) :
    Search.expression .standard (Text.trim w) = .ok (single (termOf w)) := by
  rw [word.trim, word.isBareword.expression, word.terms]
  rfl

end Query

end TextArchive
