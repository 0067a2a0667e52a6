import Mathlib.Data.List.TakeWhile
import TextArchive.Proofs.Number.Spelling
import TextArchive.Proofs.Search.RankExpression
import TextArchive.Proofs.Store.Lookup

/-!
Which weights an index can be given: what is written for weights is taken for a rank expression just
if all of them are finite.
-/

set_option autoImplicit false
set_option relaxedAutoImplicit false

namespace TextArchive.Index.RankExpression

open TextArchive.Number
open TextArchive.Number.Layout
open TextArchive.Weights (plainStyle)

section Decimal

variable (d : PlainDecimal) {c : Char} (rest : List Char)

private theorem afterFraction_append {ds : List Char} (fraction : IsDigits ds)
    (other : c.isDigit = false) :
    afterFraction ('.' :: ds ++ c :: rest) = c :: rest := by
  obtain ⟨first, later, rfl⟩ := List.exists_cons_of_ne_nil fraction.filled
  have digit := fraction.digits first List.mem_cons_self
  have digits : ∀ x ∈ later, x.isDigit = true := fun x member =>
    fraction.digits x (List.mem_cons_of_mem _ member)
  simp only [List.cons_append, afterFraction, digit, if_true]
  rw [List.dropWhile_append_of_pos digits, List.dropWhile_cons_of_neg (by simp [other])]

private theorem unsigned_text :
    (if (d.text ++ rest).head? = some '+' || (d.text ++ rest).head? = some '-' then (d.text ++ rest).tail
      else d.text ++ rest) = d.whole ++ ('.' :: d.fraction ++ rest) := by
  obtain ⟨negative, whole, fraction, isWhole, isFraction⟩ := d
  cases negative with
  | true => simp [PlainDecimal.text, sign]
  | false =>
    obtain ⟨first, later, rfl⟩ := List.exists_cons_of_ne_nil isWhole.filled
    have digit := isWhole.digits first List.mem_cons_self
    have plus : first ≠ '+' := by rintro rfl; cases digit
    have minus : first ≠ '-' := by rintro rfl; cases digit
    simp [PlainDecimal.text, sign, plus, minus]

private theorem afterNumber_text (other : c.isDigit = false) :
    afterNumber (d.text ++ c :: rest) = some (c :: rest) := by
  have shorter : (c :: rest).length < (d.text ++ c :: rest).length := by
    simp only [PlainDecimal.text, List.length_append, List.length_cons]
    omega
  simp only [afterNumber, unsigned_text, List.dropWhile_append_of_pos d.isWhole.digits]
  rw [List.cons_append, List.dropWhile_cons_of_neg (by decide), ← List.cons_append,
    afterFraction_append rest d.isFraction other, if_pos shorter]

private theorem afterLiteral_cons (letter : c.toLower ≠ 'n') (quote : c ≠ '\'') (small : c ≠ 'x')
    (capital : c ≠ 'X') :
    afterLiteral (c :: rest) = afterNumber (c :: rest) := by
  have named : ((c :: rest).take 4).map Char.toLower ≠ ['n', 'u', 'l', 'l'] := by
    simp [letter]
  simp only [afterLiteral, if_neg named]
  split <;> simp_all

private theorem exists_text_eq_cons : ∃ first later, d.text = first :: later ∧
    (first = '-' ∨ first.isDigit = true) := by
  obtain ⟨first, later, text⟩ := List.exists_cons_of_ne_nil (l := d.text)
    (by simp [PlainDecimal.text])
  refine ⟨first, later, text, ?_⟩
  obtain ⟨negative, whole, fraction, isWhole, isFraction⟩ := d
  obtain ⟨digit, more, rfl⟩ := List.exists_cons_of_ne_nil isWhole.filled
  have isDigit := isWhole.digits digit List.mem_cons_self
  cases negative with
  | true =>
    left
    simpa [PlainDecimal.text, sign] using (List.cons.inj text).1.symm
  | false =>
    right
    have same : digit = first := by simpa [PlainDecimal.text, sign] using (List.cons.inj text).1
    rwa [← same]

private theorem afterLiteral_text (other : c.isDigit = false) :
    afterLiteral (d.text ++ c :: rest) = some (c :: rest) := by
  obtain ⟨first, later, text, kind⟩ := exists_text_eq_cons d
  rw [← afterNumber_text d rest other, text, List.cons_append]
  rcases kind with rfl | digit
  · exact afterLiteral_cons _ (by decide) (by decide) (by decide) (by decide)
  · have apart : ∀ x : Char, x.isDigit = false → first ≠ x := by
      rintro x letter rfl
      rw [digit] at letter
      cases letter
    have letter : first.toLower ≠ 'n' := by
      rw [toLower_of_isDigit digit]
      exact apart 'n' (by decide)
    exact afterLiteral_cons _ letter (apart '\'' (by decide)) (apart 'x' (by decide))
      (apart 'X' (by decide))

end Decimal

section Render

variable (x : Float) {c : Char} (rest : List Char)

private theorem render_of_not_finite {x : Float} (unbounded : Binary64.isFinite x = false) :
    plainStyle.render x = "NaN.0".toList ∨ plainStyle.render x = "inf.0".toList ∨
      plainStyle.render x = "-inf.0".toList := by
  have none : Binary64.parts? x = none := by simpa [Binary64.isFinite] using unbounded
  simp only [Style.render, none]
  split
  · exact .inl rfl
  · unfold sign
    split
    · exact .inr (.inr rfl)
    · exact .inr (.inl rfl)

private theorem afterLiteral_render (other : c.isDigit = false) :
    (Binary64.isFinite x = true → afterLiteral (plainStyle.render x ++ c :: rest) = some (c :: rest)) ∧
    (Binary64.isFinite x = false → ∀ left, afterLiteral (plainStyle.render x ++ c :: rest) = some left →
      left.head? = some 'i') := by
  refine ⟨fun finite => ?_, fun unbounded left read => ?_⟩
  · obtain ⟨d, -, -, text⟩ := Weights.exists_render finite
    rw [text]
    exact afterLiteral_text d rest other
  · rcases render_of_not_finite unbounded with text | text | text
    · rw [text] at read
      simp [afterLiteral, afterNumber, afterFraction] at read
    · rw [text] at read
      simp [afterLiteral, afterNumber, afterFraction] at read
    · rw [text] at read
      simp [afterLiteral, afterNumber, afterFraction] at read
      simp [← read]

private theorem head_render : ∃ first later, plainStyle.render x = first :: later ∧ first ≠ ' ' ∧
    first ≠ ')' := by
  cases finite : Binary64.isFinite x with
  | true =>
    obtain ⟨d, -, -, text⟩ := Weights.exists_render finite
    obtain ⟨first, later, cons, kind⟩ := exists_text_eq_cons d
    refine ⟨first, later, text.trans cons, ?_⟩
    rcases kind with rfl | digit
    · decide
    · constructor <;> rintro rfl <;> cases digit
  | false =>
    rcases render_of_not_finite finite with text | text | text <;> exact ⟨_, _, text, by decide⟩

private theorem afterSpaces_render : afterSpaces
    (plainStyle.render x ++ rest) = plainStyle.render x ++ rest := by
  obtain ⟨first, later, text, blank, -⟩ := head_render x
  rw [text, List.cons_append, afterSpaces, List.dropWhile_cons_of_neg (by simpa using blank)]

private theorem areArguments_space (n : Nat) (cs : List Char) :
    areArguments n (' ' :: cs) = areArguments n cs := by
  cases n <;> rfl

private theorem areArguments_last (n : Nat) :
    areArguments (n + 1) (plainStyle.render x ++ [')']) = Binary64.isFinite x := by
  obtain ⟨whole, stuck⟩ := afterLiteral_render x [] (c := ')') (by decide)
  rw [areArguments, afterSpaces_render]
  cases finite : Binary64.isFinite x with
  | true =>
    rw [whole finite]
    rfl
  | false =>
    cases read : afterLiteral (plainStyle.render x ++ [')']) with
    | none => rfl
    | some left =>
      obtain ⟨later, rfl⟩ := List.head?_eq_some_iff.mp (stuck finite left read)
      rfl

private theorem areArguments_cons (n : Nat) :
    areArguments (n + 1) (plainStyle.render x ++ ',' :: ' ' :: rest) =
    (Binary64.isFinite x && areArguments n rest) := by
  obtain ⟨whole, stuck⟩ := afterLiteral_render x (' ' :: rest) (c := ',') (by decide)
  rw [areArguments, afterSpaces_render]
  cases finite : Binary64.isFinite x with
  | true =>
    rw [whole finite, Bool.true_and, ← areArguments_space n rest]
    rfl
  | false =>
    rw [Bool.false_and]
    cases read : afterLiteral (plainStyle.render x ++ ',' :: ' ' :: rest) with
    | none => rfl
    | some left =>
      obtain ⟨later, rfl⟩ := List.head?_eq_some_iff.mp (stuck finite left read)
      rfl

private theorem zero_not_mem_render : '\x00' ∉ plainStyle.render x := by
  cases finite : Binary64.isFinite x with
  | true =>
    obtain ⟨d, -, -, text⟩ := Weights.exists_render finite
    rw [text]
    exact not_mem_text d (by decide) (by decide) (by decide)
  | false =>
    rcases render_of_not_finite finite with text | text | text <;> rw [text] <;> decide

end Render

private theorem intercalate_four (p q r s : List Char) :
    [',', ' '].intercalate [p, q, r, s] ++ [')'] =
      p ++ ',' :: ' ' :: (q ++ ',' :: ' ' :: (r ++ ',' :: ' ' :: (s ++ [')']))) := by
  simp [List.intercalate, List.intersperse]

/-- What is written for weights is taken for a rank expression just if all of them are finite. -/
theorem isExpression_expression (w : Weights) : isExpression w.expression.toList = w.allFinite := by
  obtain ⟨inner, inside⟩ : ∃ inner, inner = plainStyle.render w.title ++ ',' :: ' ' ::
    (plainStyle.render w.sourcePath ++ ',' :: ' ' ::
      (plainStyle.render w.content ++ ',' :: ' ' :: (plainStyle.render w.tag ++ [')']))) := ⟨_, rfl⟩
  have written : w.expression.toList = "bm25(".toList ++ inner := by
    rw [inside, ← intercalate_four]
    exact String.toList_ofList.trans (List.append_assoc ..)
  have unended : ∀ x ∈ "bm25(".toList ++ inner, decide (x ≠ '\x00') = true := by
    intro x member
    have apart : ∀ y, '\x00' ∉ plainStyle.render y := zero_not_mem_render
    have other : x ≠ '\x00' := by
      rintro rfl
      simp [inside, apart] at member
    simpa using other
  have whole : ("bm25(".toList ++ inner).takeWhile (· ≠ '\x00') = "bm25(".toList ++ inner := by
    exact List.takeWhile_eq_self_iff.mpr unended
  have opened : hasArguments ('(' :: inner) = areArguments inner.length inner := by
    obtain ⟨first, later, text, blank, closing⟩ := head_render w.title
    have spaces : afterSpaces inner = inner := by rw [inside, afterSpaces_render]
    have head : inner.head? = some first := by simp [inside, text]
    simp [hasArguments,
      show afterSpaces ('(' :: inner) = '(' :: inner from rfl, spaces, head, closing]
  have enough : ∃ n, inner.length = n + 4 := by
    refine Nat.exists_eq_add_of_le' ?_
    simp only [inside, List.length_append, List.length_cons]
    omega
  obtain ⟨n, length⟩ := enough
  have named : isExpression ("bm25(".toList ++ inner) = hasArguments ('(' :: inner) := by
    simp only [isExpression, whole]
    rfl
  rw [written, named, opened, length, inside, areArguments_cons,
    areArguments_cons, areArguments_cons, areArguments_last]
  simp [Weights.allFinite, Weights.toList]

end TextArchive.Index.RankExpression

namespace TextArchive.Store.Database.IsCollection

variable {db : Database} {name : String} (there : db.IsCollection name) {w : Weights}
include there

theorem setRank_of_finite (finite : w.allFinite = true) :
    db.setRank name w.expression = .ok
    (db.modify name (Table.reindex (Indexing.withRank w.expression))) := by
  rw [there.setRank, Index.RankExpression.isExpression_expression, finite]
  rfl

theorem setRank_of_not_finite (unbounded : w.allFinite = false) :
    db.setRank name w.expression = .error .unusableRank := by
  rw [there.setRank, Index.RankExpression.isExpression_expression, unbounded]
  rfl

end TextArchive.Store.Database.IsCollection
