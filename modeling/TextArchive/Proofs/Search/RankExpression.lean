import TextArchive.Index.RankExpression
import TextArchive.Text.Blank
import TextArchive.Weights

/-!
Rank expressions as an index reads them. Every finite weight is written as a plain decimal: a minus
if it has one, digits, a point and digits. Of the expression of finite weights the index reads just
these decimals, in the order of the columns.
-/

set_option autoImplicit false
set_option relaxedAutoImplicit false

namespace TextArchive

open TextArchive.Number
open TextArchive.Number.Layout

structure Number.IsDigits (cs : List Char) : Prop where
  filled : cs ≠ []
  digits : ∀ c ∈ cs, c.isDigit = true

/-- A decimal with digits before and after its point, and without an exponent. -/
structure Number.PlainDecimal where
  negative : Bool
  whole : List Char
  fraction : List Char
  isWhole : IsDigits whole
  isFraction : IsDigits fraction

namespace Number.PlainDecimal

def text (d : PlainDecimal) : List Char :=
  sign d.negative ++ d.whole ++ '.' :: d.fraction

/-- The decimal shows digits: nothing but zeros stands before and after them, and the point is after
the given number of them. -/
def Shows (d : PlainDecimal) (digits : List Char) (point : Int) : Prop :=
  ∃ before after, d.whole ++ d.fraction = zeros before ++ digits ++ zeros after ∧
    (digits.length : Int) + after = point + d.fraction.length

/-- The number that the decimal stands for in a rank expression. -/
def value (d : PlainDecimal) : Float :=
  let magnitude := Extended.ofDecimal d.whole d.fraction
  if d.negative then -magnitude else magnitude

end Number.PlainDecimal

namespace Number.IsDigits

variable {cs ds : List Char}

private theorem append (left : IsDigits cs) (right : ∀ c ∈ ds, c.isDigit = true) :
    IsDigits (cs ++ ds) where
  filled := by simp [left.filled]
  digits := by
    intro c member
    rcases List.mem_append.mp member with before | after
    · exact left.digits c before
    · exact right c after

private theorem part (whole : IsDigits cs) (filled : ds ≠ []) (part : ∀ c ∈ ds, c ∈ cs) :
    IsDigits ds :=
  ⟨filled, fun c member => whole.digits c (part c member)⟩

end Number.IsDigits

namespace Number.Layout

theorem isDigits_digitsOf (n : Nat) : IsDigits (digitsOf n) where
  filled := Nat.toDigits_ne_nil
  digits _ member := Nat.isDigit_of_mem_toDigits (by decide) (by decide) member

theorem isDigit_of_mem_zeros {n : Nat} {c : Char} (member : c ∈ zeros n) : c.isDigit = true := by
  rw [List.eq_of_mem_replicate member]
  rfl

private theorem isDigits_zero : IsDigits ['0'] where
  filled := List.cons_ne_nil _ _
  digits := by
    intro c member
    rw [List.mem_singleton.mp member]
    rfl

private theorem exists_positional {digits : List Char} (isDigits : IsDigits digits)
    (negative : Bool) (point : Int) :
    ∃ d : PlainDecimal, d.negative = negative ∧ d.Shows digits point ∧
      sign negative ++ positional digits point ['.', '0'] = d.text := by
  unfold positional
  split
  · rename_i small
    have fraction : IsDigits (zeros (-point).toNat ++ digits) := by
      refine ⟨by simp [isDigits.filled], fun c member => ?_⟩
      rcases List.mem_append.mp member with before | after
      · exact isDigit_of_mem_zeros before
      · exact isDigits.digits c after
    refine ⟨⟨negative, _, _, isDigits_zero, fraction⟩, rfl, ⟨(-point).toNat + 1, 0, ?_, ?_⟩,
      by simp [PlainDecimal.text]⟩
    · simp [zeros, List.replicate_succ]
    · simp only [zeros, List.length_append, List.length_replicate]
      omega
  split
  · rename_i large
    have whole := isDigits.append fun c (member : c ∈ zeros (point.toNat - digits.length)) =>
      isDigit_of_mem_zeros member
    refine ⟨⟨negative, _, _, whole, isDigits_zero⟩, rfl,
      ⟨0, point.toNat - digits.length + 1, ?_, ?_⟩, by simp [PlainDecimal.text]⟩
    · simp [zeros, List.replicate_succ']
    · simp only [List.length_singleton]
      omega
  · rename_i positive short
    have before : digits.take point.toNat ≠ [] := by
      intro none
      rcases List.take_eq_nil_iff.mp none with zero | empty
      · omega
      · exact isDigits.filled empty
    have after : digits.drop point.toNat ≠ [] := by
      intro none
      have := List.drop_eq_nil_iff.mp none
      omega
    have whole := isDigits.part before fun _ => List.mem_of_mem_take
    have fraction := isDigits.part after fun _ => List.mem_of_mem_drop
    refine ⟨⟨negative, _, _, whole, fraction⟩, rfl, ⟨0, 0, ?_, ?_⟩, by simp [PlainDecimal.text]⟩
    · simp [zeros]
    · simp only [List.length_drop]
      omega

end Number.Layout

/-- The decimal whose digits are written for a finite double. -/
def Number.Binary64.Parts.decimal (parts : Binary64.Parts) : Shortest.Decimal :=
  if parts.significand = 0 then ⟨0, 0⟩ else Shortest.shortest parts.significand parts.exponent

/-- The decimal shows the digits of another, and its point is in their place. -/
def Number.PlainDecimal.Spells (d : PlainDecimal) (decimal : Shortest.Decimal) : Prop :=
  d.Shows (digitsOf decimal.digits) ((digitsOf decimal.digits).length + decimal.exponent)

namespace Weights

/-- A finite number is written as a plain decimal of its digits, with a minus just if its sign is
set. -/
theorem exists_render {x : Float} (finite : Binary64.isFinite x = true) :
    ∃ d : PlainDecimal, d.negative = decide (Binary64.signBit ≤ x.toBits.toNat) ∧
      (∀ parts, Binary64.parts? x = some parts → d.Spells parts.decimal) ∧
      plainStyle.render x = d.text := by
  obtain ⟨⟨negative, m, e⟩, parts⟩ := Option.isSome_iff_exists.mp finite
  have signed : negative = decide (Binary64.signBit ≤ x.toBits.toNat) := by
    simp only [Binary64.parts?, Binary64.partsOfBits] at parts
    split at parts
    · cases parts
    split at parts <;> exact (congrArg Binary64.Parts.negative (Option.some.inj parts)).symm
  rw [← signed]
  simp only [parts, Option.some.injEq, forall_eq']
  cases m with
  | zero =>
    refine ⟨⟨negative, ['0'], ['0'], isDigits_zero, isDigits_zero⟩, rfl, ⟨0, 1, ?_, ?_⟩, ?_⟩
    · simp [Binary64.Parts.decimal, digitsOf, zeros]
    · simp [Binary64.Parts.decimal, digitsOf]
    · simp [Style.render, parts, PlainDecimal.text, plainStyle]
  | succ m =>
    obtain ⟨d, minus, spelled, text⟩ := exists_positional
      (isDigits_digitsOf (Shortest.shortest (m + 1) e).digits)
      negative
        ((digitsOf (Shortest.shortest (m + 1) e).digits).length + (Shortest.shortest (m + 1) e).exponent)
    refine ⟨d, minus, spelled, ?_⟩
    rw [← text]
    simp [Style.render, parts, plainStyle]

end Weights

namespace Index.RankExpression

section Read

variable (d : PlainDecimal)

private theorem of_mem_text {c : Char} (member : c ∈ d.text) :
    c = '-' ∨ c = '.' ∨ c.isDigit = true := by
  simp only [PlainDecimal.text, List.mem_append, List.mem_cons] at member
  rcases member with (minus | digit) | point | digit
  · refine .inl ?_
    cases negative : d.negative <;> simp_all [sign]
  · exact .inr (.inr (d.isWhole.digits c digit))
  · exact .inr (.inl point)
  · exact .inr (.inr (d.isFraction.digits c digit))

theorem not_mem_text {c : Char} (minus : c ≠ '-') (point : c ≠ '.') (digit : c.isDigit = false) :
    c ∉ d.text := by
  intro member
  rcases of_mem_text d member with rfl | rfl | isDigit
  · exact minus rfl
  · exact point rfl
  · simp [digit] at isDigit

theorem splitSign_text : Literal.splitSign d.text = (d.negative, d.whole ++ '.' :: d.fraction) := by
  obtain ⟨negative, whole, fraction, isWhole, _⟩ := d
  cases negative with
  | true => rfl
  | false =>
    obtain ⟨first, whole, rfl⟩ := List.exists_cons_of_ne_nil isWhole.filled
    have digit := isWhole.digits first List.mem_cons_self
    simp only [PlainDecimal.text, sign, Bool.false_eq_true, if_false, List.nil_append,
      List.cons_append]
    unfold Literal.splitSign
    split
    · simp_all
    · simp_all
    · rfl

theorem takeWhile_isDigit : (d.whole ++ '.' :: d.fraction).takeWhile Char.isDigit = d.whole := by
  rw [List.takeWhile_append_of_pos d.isWhole.digits,
    List.takeWhile_cons_of_neg (by decide), List.append_nil]

theorem dropWhile_isDigit : (d.whole ++ '.' :: d.fraction).dropWhile Char.isDigit =
    '.' :: d.fraction := by
  rw [List.dropWhile_append_of_pos d.isWhole.digits, List.dropWhile_cons_of_neg (by decide)]

private theorem number_text (spaces : List Char) (blank : ∀ c ∈ spaces, c = ' ') :
    number (spaces ++ d.text) = d.value := by
  have skipped : (spaces ++ d.text).filter (· ≠ ' ') = d.text := by
    rw [List.filter_append, List.filter_eq_nil_iff.mpr (by simpa using blank), List.nil_append]
    refine List.filter_eq_self.mpr fun c member => ?_
    have other : c ≠ ' ' := fun same =>
      not_mem_text d (by decide) (by decide) (by decide) (same ▸ member)
    simpa using other
  simp only [number, skipped, splitSign_text, takeWhile_isDigit, dropWhile_isDigit]
  rfl

private theorem trim_text (spaces : List Char) (blank : ∀ c ∈ spaces, c = ' ') :
    Text.trim (spaces ++ d.text) = d.text := by
  refine Text.trim_append (fun c member => ?_) fun c member => ?_
  · rw [blank c member]
    rfl
  · rcases of_mem_text d member with rfl | rfl | digit
    · rfl
    · rfl
    · have code : 48 ≤ c.toNat ∧ c.toNat ≤ 57 := by
        simpa [Char.isDigit, UInt32.le_iff_toNat_le] using digit
      refine Bool.eq_false_iff.mpr fun blank => ?_
      simp only [Text.isBlank, Bool.or_eq_true, Bool.and_eq_true, decide_eq_true_eq] at blank
      omega

end Read

/-- What stands between the commas in the brackets of a rank expression. -/
def pieces (expression : String) : List (List Char) :=
  Text.Split.pieces (· = ',') (((expression.toList.dropWhile (· ≠ '(')).drop 1).takeWhile (· ≠ ')'))

private theorem weights_eq (expression : String) :
    weights expression = ((pieces expression).filter (!·.isEmpty)).map number := rfl

private theorem pieces_of_texts (a b c d : PlainDecimal) :
    pieces (String.ofList ("bm25(".toList ++ [',', ' '].intercalate [a.text, b.text, c.text, d.text] ++ [')'])) =
      [a.text, ' ' :: b.text, ' ' :: c.text, ' ' :: d.text] := by
  generalize written : [',', ' '].intercalate [a.text, b.text, c.text, d.text] = inner
  have laid : inner = a.text ++ ',' ::
    ((' ' :: b.text) ++ ',' :: ((' ' :: c.text) ++ ',' :: (' ' :: d.text))) := by
    rw [← written]
    simp [List.intercalate, List.intersperse]
  have open_ : ∀ c ∈ inner, c ≠ ')' := by
    rintro _ member rfl
    have apart : ∀ d : PlainDecimal, ')' ∉ d.text := fun d =>
      not_mem_text d (by decide) (by decide) (by decide)
    simp [laid, apart] at member
  have within : (((("bm25(".toList ++ inner ++ [')']).dropWhile (· ≠ '(')).drop 1).takeWhile (· ≠ ')')) = inner := by
    have front : ((("bm25(".toList ++ inner ++ [')']).dropWhile (· ≠ '(')).drop 1) = inner ++ [')'] := by
      simp [List.dropWhile]
    rw [front, List.takeWhile_append_of_pos (by simpa using open_)]
    simp
  have alone : ∀ d : PlainDecimal, ∀ x ∈ d.text, (fun c : Char => decide (c = ',')) x = false := by
    intro d x member
    have other : x ≠ ',' := fun same =>
      not_mem_text d (by decide) (by decide) (by decide) (same ▸ member)
    simpa using other
  have spaced : ∀ d : PlainDecimal, ∀ x ∈ ' ' :: d.text,
    (fun c : Char => decide (c = ',')) x = false := by
    intro d x member
    rcases List.mem_cons.mp member with rfl | inside
    · rfl
    · exact alone d x inside
  rw [pieces, String.toList_ofList, within, laid, Text.Split.pieces_append_separator (by decide),
    Text.Split.pieces_append_separator (by decide), Text.Split.pieces_append_separator (by decide),
    Text.Split.pieces_of_no_separator (alone a), Text.Split.pieces_of_no_separator (spaced b),
    Text.Split.pieces_of_no_separator (spaced c), Text.Split.pieces_of_no_separator (spaced d)]
  rfl

private theorem weights_of_texts (a b c d : PlainDecimal) :
    weights (String.ofList ("bm25(".toList ++ [',', ' '].intercalate [a.text, b.text, c.text, d.text] ++ [')'])) =
      [a.value, b.value, c.value, d.value] := by
  have first := number_text a [] (by simp)
  have later : ∀ d : PlainDecimal, number (' ' :: d.text) = d.value := fun d =>
    number_text d [' '] (by simp)
  have filled : a.text ≠ [] := by simp [PlainDecimal.text]
  rw [weights_eq, pieces_of_texts]
  simp [later, filled, show number a.text = a.value from first]

/-- How an expression states weights: each is a plain decimal, with a minus just if the sign of the
weight is set, the decimals stand in the order of the columns, and the index reads the expression as
what they stand for. -/
structure States (w : Weights) (a b c d : PlainDecimal) : Prop where
  rendered : [a.text, b.text, c.text, d.text] =
    [w.title, w.sourcePath, w.content, w.tag].map Weights.plainStyle.render
  signs : [a.negative, b.negative, c.negative, d.negative] =
    [w.title, w.sourcePath, w.content, w.tag].map fun x =>
      decide (Binary64.signBit ≤ x.toBits.toNat)
  expression : w.expression.toList = "bm25(".toList ++ a.text ++ ", ".toList ++ b.text ++ ", ".toList ++ c.text ++
    ", ".toList ++ d.text ++ ")".toList
  read : weights w.expression = [a.value, b.value, c.value, d.value]

private theorem exists_texts {w : Weights} (finite : w.allFinite = true) : ∃ a b c d : PlainDecimal,
    [a.text, b.text, c.text, d.text] = w.toList.map Weights.plainStyle.render ∧
    [a.negative, b.negative, c.negative, d.negative] =
      w.toList.map (fun x => decide (Binary64.signBit ≤ x.toBits.toNat)) ∧
    w.expression = String.ofList
      ("bm25(".toList ++ [',', ' '].intercalate [a.text, b.text, c.text, d.text] ++ [')']) := by
  have each : ∀ x ∈ w.toList, Binary64.isFinite x = true := List.all_eq_true.mp finite
  obtain ⟨a, minus_a, -, text_a⟩ := Weights.exists_render (each w.title (by simp [Weights.toList]))
  obtain ⟨b, minus_b, -, text_b⟩ := Weights.exists_render
    (each w.sourcePath (by simp [Weights.toList]))
  obtain ⟨c, minus_c, -, text_c⟩ := Weights.exists_render
    (each w.content (by simp [Weights.toList]))
  obtain ⟨d, minus_d, -, text_d⟩ := Weights.exists_render (each w.tag (by simp [Weights.toList]))
  have rendered : [a.text, b.text, c.text, d.text] = w.toList.map Weights.plainStyle.render := by
    rw [← text_a, ← text_b, ← text_c, ← text_d]
    rfl
  refine ⟨a, b, c, d, rendered, ?_, ?_⟩
  · simp only [Weights.toList, List.map_cons, List.map_nil, minus_a, minus_b, minus_c, minus_d]
  · rw [rendered]
    rfl

theorem exists_states {w : Weights} (finite : w.allFinite = true) :
    ∃ a b c d, States w a b c d := by
  obtain ⟨a, b, c, d, rendered, signs, written⟩ := exists_texts finite
  refine ⟨a, b, c, d, rendered, signs, ?_, ?_⟩
  · rw [written]
    simp [List.intercalate, List.intersperse]
  · rw [written]
    exact weights_of_texts a b c d

def arguments (expression : String) : List (List Char) :=
  (pieces expression).map Text.trim

theorem arguments_expression {w : Weights} (finite : w.allFinite = true) :
    arguments w.expression = w.toList.map Weights.plainStyle.render := by
  obtain ⟨a, b, c, d, rendered, -, written⟩ := exists_texts finite
  have first := trim_text a [] (by simp)
  have later : ∀ d : PlainDecimal, Text.trim (' ' :: d.text) = d.text := fun d =>
    trim_text d [' '] (by simp)
  rw [arguments, written, pieces_of_texts, ← rendered]
  simp only [List.map_cons, List.map_nil, later]
  rw [show Text.trim a.text = a.text from first]

/-- The weights that the index reads, each from the written form of its own weight. -/
theorem weights_expression {w : Weights} (finite : w.allFinite = true) :
    weights w.expression = w.toList.map fun x => number (Weights.plainStyle.render x) := by
  obtain ⟨a, b, c, d, stated⟩ := exists_states finite
  have rendered := congrArg (List.map number) stated.rendered
  have read : ∀ e : PlainDecimal, number e.text = e.value := fun e => number_text e [] (by simp)
  simp only [List.map_cons, List.map_nil, read] at rendered
  rw [stated.read, rendered]
  rfl

end Index.RankExpression

end TextArchive
