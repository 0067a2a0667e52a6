import TextArchive.Proofs.Number.Literal

/-!
What texts spell as numbers. Digits stand for the sum of their values by place. A decimal is a sign,
digits with a point or without, and a power of ten; it stands for the double that its number is
rounded to, and past the reach of doubles for an infinite one. Reading a decimal gives this double,
and what is no decimal is not read.
-/

set_option autoImplicit false
set_option relaxedAutoImplicit false

namespace TextArchive.Number

open Binary64

/-- The sum of digits by their places. -/
def placeValue : List Char → ℕ
  | [] => 0
  | c :: cs => (c.toNat - '0'.toNat) * 10 ^ cs.length + placeValue cs

structure IsNumeral (cs : List Char) (n : ℕ) : Prop where
  filled : cs ≠ []
  digits : ∀ c ∈ cs, c.isDigit = true
  value : placeValue cs = n

/-- A sign or none, and whether it is a minus. -/
inductive IsSign : List Char → Bool → Prop
  | none : IsSign [] false
  | plus : IsSign ['+'] false
  | minus : IsSign ['-'] true

/-- Digits with one point at most, their number without the point, and how many follow it. -/
inductive IsMantissa : List Char → ℕ → ℕ → Prop
  | whole {digits : List Char} {n : ℕ} : IsNumeral digits n → IsMantissa digits n 0
  | pointed {whole fraction : List Char} {n : ℕ} :
      IsNumeral (whole ++ fraction) n → IsMantissa (whole ++ '.' :: fraction) n fraction.length

/-- A power of ten or none. -/
inductive IsPower : List Char → ℤ → Prop
  | none : IsPower [] 0
  | marked {mark : Char} {sign digits : List Char} {negative : Bool} {n : ℕ} :
      mark = 'e' ∨ mark = 'E' →
      IsSign sign negative → IsNumeral digits n → IsPower
      (mark :: (sign ++ digits)) (if negative then -n else n)

/-- What a text spells as a double. -/
inductive SpellsDouble : List Char → Float → Prop
  | rounded {sign mantissa power : List Char} {negative : Bool} {n places : ℕ}
      {exponent : ℤ} {x : Float} :
      IsSign sign negative → IsMantissa mantissa n places → IsPower power exponent →
      RoundsTo negative (signed negative (n * 10 ^ (exponent - places))) x →
      SpellsDouble (sign ++ (mantissa ++ power)) x
  | large {sign mantissa power : List Char} {negative : Bool} {n places : ℕ} {exponent : ℤ} :
      IsSign sign negative → IsMantissa mantissa n places → IsPower power exponent →
      (2 ^ 1024 - 2 ^ 970 : ℚ) ≤ n * 10 ^ (exponent - places) →
      SpellsDouble (sign ++ (mantissa ++ power)) (ofSignAndBits negative infinityBits)
  | infinite {sign word : List Char} {negative : Bool} : IsSign sign negative →
      word.map Char.toLower = "inf".toList ∨ word.map Char.toLower = "infinity".toList →
      SpellsDouble (sign ++ word) (ofSignAndBits negative infinityBits)
  | undefined {sign word : List Char} {negative : Bool} : IsSign sign negative →
      word.map Char.toLower = "nan".toList → SpellsDouble (sign ++ word) Literal.undefined

section Signs

private theorem unsigned_of_isDigit {c : Char} (digit : c.isDigit = true) : c ≠ '-' ∧ c ≠ '+' := by
  constructor <;> rintro rfl <;> cases digit

private theorem IsNumeral.unsigned {cs : List Char} {n : ℕ} (numeral : IsNumeral cs n) :
    ∀ c ∈ cs.head?, c ≠ '-' ∧ c ≠ '+' :=
  fun c first => unsigned_of_isDigit (numeral.digits c (List.mem_of_mem_head? first))

variable {sign cs rest : List Char} {negative : Bool}

private theorem exists_isSign (split : Literal.splitSign cs = (negative, rest)) :
    ∃ sign, cs = sign ++ rest ∧ IsSign sign negative := by
  unfold Literal.splitSign at split
  split at split <;> cases split
  · exact ⟨['-'], rfl, .minus⟩
  · exact ⟨['+'], rfl, .plus⟩
  · exact ⟨[], rfl, .none⟩

private theorem splitSign_append (isSign : IsSign sign negative)
    (unsigned : ∀ c ∈ cs.head?, c ≠ '-' ∧ c ≠ '+') :
    Literal.splitSign (sign ++ cs) = (negative, cs) := by
  cases isSign with
  | plus | minus => rfl
  | none =>
    rw [List.nil_append]
    unfold Literal.splitSign
    split
    · exact absurd rfl (unsigned _ rfl).1
    · exact absurd rfl (unsigned _ rfl).2
    · rfl

end Signs

theorem toLower_of_isDigit {c : Char} (digit : c.isDigit = true) : c.toLower = c := by
  have code : 48 ≤ c.val.toNat ∧ c.val.toNat ≤ 57 := by
    simpa [Char.isDigit, UInt32.le_iff_toNat_le] using digit
  have small : ¬ 65 ≤ c.val := by
    rw [UInt32.le_iff_toNat_le]
    exact Nat.not_le.mpr (Nat.lt_of_le_of_lt code.2 (by decide))
  simp [Char.toLower, small]

namespace Literal

private theorem foldl_digitValue (n : ℕ) (cs : List Char) :
    cs.foldl (fun n c => 10 * n + digitValue c) n = n * 10 ^ cs.length + placeValue cs := by
  induction cs generalizing n with
  | nil => simp [placeValue]
  | cons c cs ih =>
    rw [List.foldl_cons, ih, placeValue, List.length_cons, pow_succ, digitValue]
    ring

private theorem naturalValue_eq (cs : List Char) : naturalValue cs = placeValue cs :=
  (foldl_digitValue 0 cs).trans (by rw [Nat.zero_mul, Nat.zero_add])

theorem exponent?_eq_some_iff {cs : List Char} {e : ℤ} : exponent? cs = some e ↔ IsPower cs e := by
  constructor
  · intro read
    cases cs with
    | nil =>
      cases read
      exact .none
    | cons mark rest =>
      rcases split : splitSign rest with ⟨negative, digits⟩
      obtain ⟨sign, rfl, isSign⟩ := exists_isSign split
      simp only [exponent?, split, Bool.or_eq_true, decide_eq_true_eq, Bool.not_eq_true',
        List.isEmpty_iff] at read
      split at read
      · rename_i marked
        split at read
        · cases read
        · rename_i filled
          obtain ⟨filled, digital⟩ := not_or.mp filled
          cases read
          exact .marked marked isSign ⟨filled, by simpa using digital,
            (naturalValue_eq digits).symm⟩
      · cases read
  · intro power
    cases power with
    | none => rfl
    | @marked mark sign digits negative n marked isSign numeral =>
      have digital : digits.all Char.isDigit = true := List.all_eq_true.mpr numeral.digits
      have filled : digits.isEmpty = false := List.isEmpty_eq_false_iff.mpr numeral.filled
      simp only [exponent?, splitSign_append isSign numeral.unsigned, naturalValue_eq,
        numeral.value, digital, filled]
      rw [if_pos (by simpa using marked)]
      rfl

private theorem IsPower.first {power : List Char} {e : ℤ} (isPower : IsPower power e) :
    ∀ c ∈ power.head?, c.isDigit = false ∧ c ≠ '.' := by
  rintro c first
  cases isPower with
  | none => cases first
  | marked marked =>
    cases first
    rcases marked with rfl | rfl <;> exact ⟨by decide, by decide⟩

private theorem span_isDigit {digits rest : List Char} (digital : ∀ c ∈ digits, c.isDigit = true)
    (ends : ∀ c ∈ rest.head?, c.isDigit = false) :
    (digits ++ rest).takeWhile Char.isDigit = digits ∧
    (digits ++ rest).dropWhile Char.isDigit = rest := by
  rw [List.takeWhile_append_of_pos digital, List.dropWhile_append_of_pos digital]
  cases rest with
  | nil => simp
  | cons c rest =>
    have other : ¬ c.isDigit = true := by simpa using ends c rfl
    rw [List.takeWhile_cons_of_neg other, List.dropWhile_cons_of_neg other, List.append_nil]
    exact ⟨rfl, rfl⟩

private theorem magnitude?_append {mantissa power : List Char} {n places : ℕ} {e : ℤ}
    (isMantissa : IsMantissa mantissa n places)
    (isPower : IsPower power e) : magnitude? (mantissa ++ power) = some (n, e - places) := by
  have first := IsPower.first isPower
  have read := exponent?_eq_some_iff.mpr isPower
  cases isMantissa with
  | whole numeral =>
    obtain ⟨taken, left⟩ := span_isDigit numeral.digits fun c here => (first c here).1
    have filled : mantissa.isEmpty = false := List.isEmpty_eq_false_iff.mpr numeral.filled
    simp only [magnitude?, taken, left]
    split
    · exact absurd rfl (first _ rfl).2
    · simp [filled, read, naturalValue_eq, numeral.value]
  | @pointed whole fraction n numeral =>
    have digital := List.forall_mem_append.mp numeral.digits
    rw [List.append_assoc, List.cons_append]
    obtain ⟨taken, left⟩ := @span_isDigit whole ('.' :: (fraction ++ power)) digital.1 (by simp)
    obtain ⟨taken', left'⟩ := span_isDigit digital.2 fun c here => (first c here).1
    have filled : ¬ (whole = [] ∧ fraction = []) := by simpa using numeral.filled
    simp only [magnitude?, taken, left, taken', left']
    simp [filled, read, naturalValue_eq, numeral.value]

private theorem exists_isMantissa {cs : List Char} {n : ℕ} {e : ℤ}
    (read : magnitude? cs = some (n, e)) :
    ∃ mantissa power places exponent, cs = mantissa ++ power ∧ IsMantissa mantissa n places ∧
    IsPower power exponent ∧
      e = exponent - places := by
  have parts := @List.takeWhile_append_dropWhile _ Char.isDigit cs
  have digital : ∀ c ∈ cs.takeWhile Char.isDigit, c.isDigit = true := fun c member =>
    List.mem_takeWhile_imp member
  simp only [magnitude?] at read
  generalize cs.takeWhile Char.isDigit = whole at parts digital read
  generalize cs.dropWhile Char.isDigit = rest at parts read
  subst parts
  split at read
  · rename_i r
    have parts := @List.takeWhile_append_dropWhile _ Char.isDigit r
    have digital' : ∀ c ∈ r.takeWhile Char.isDigit, c.isDigit = true := fun c member =>
      List.mem_takeWhile_imp member
    generalize r.takeWhile Char.isDigit = fraction at parts digital' read
    generalize r.dropWhile Char.isDigit = power at parts read
    subst parts
    split at read
    · cases read
    · rename_i filled
      obtain ⟨exponent, isPower, made⟩ := Option.map_eq_some_iff.mp read
      cases made
      refine ⟨whole ++ '.' :: fraction, power, fraction.length, exponent,
        by simp, .pointed ⟨?_, ?_, ?_⟩, exponent?_eq_some_iff.mp isPower, rfl⟩
      · simpa using filled
      · exact List.forall_mem_append.mpr ⟨digital, digital'⟩
      · exact (naturalValue_eq _).symm
  · split at read
    · cases read
    · rename_i filled
      obtain ⟨exponent, isPower, made⟩ := Option.map_eq_some_iff.mp read
      cases made
      refine ⟨whole, rest, 0, exponent, rfl, .whole ⟨?_, digital, ?_⟩,
        exponent?_eq_some_iff.mp isPower, rfl⟩
      · simpa using filled
      · rw [List.append_nil, naturalValue_eq]

private theorem Scaled.toFloat_spelled (s : Scaled) :
    RoundsTo s.negative (signed s.negative s.size) s.toFloat ∨
      2 ^ 1024 - 2 ^ 970 ≤ s.size ∧ s.toFloat = ofSignAndBits s.negative infinityBits := by
  obtain ⟨n, rounds⟩ := s.exists_rounds
  rw [toFloat_eq rounds]
  rcases Nat.lt_or_ge n infinityBits with finite | past
  · rw [min_eq_left finite.le]
    have bits := magnitude_ofSignAndBits s.negative finite
    exact .inl (Rounds.roundsTo (bits.symm ▸ rounds) s.size_nonneg (isFinite_ofSignAndBits _ finite)
      (isNegative_ofSignAndBits _ finite))
  · rw [min_eq_right past]
    exact .inr ⟨rounds.reach_le past, rfl⟩

private theorem Scaled.toFloat_of_roundsTo {s : Scaled} {x : Float}
    (rounds : RoundsTo s.negative (signed s.negative s.size) x) :
    s.toFloat = x := by
  rcases s.toFloat_spelled with own | ⟨past, -⟩
  · exact eq_of_magnitude (own.sign.trans rounds.sign.symm) (own.isNearest.unique rounds.isNearest)
  · have size : |signed s.negative s.size| = s.size := by
      cases s.negative <;> simp [signed, abs_of_nonneg s.size_nonneg]
    exact absurd (size ▸ rounds.reach) past.not_gt

private theorem Scaled.toFloat_of_reach_le {s : Scaled} (past : 2 ^ 1024 - 2 ^ 970 ≤ s.size) :
    s.toFloat = ofSignAndBits s.negative infinityBits := by
  rcases s.toFloat_spelled with own | ⟨-, infinite⟩
  · have size : |signed s.negative s.size| = s.size := by
      cases s.negative <;> simp [signed, abs_of_nonneg s.size_nonneg]
    exact absurd (size ▸ own.reach) past.not_gt
  · exact infinite

private theorem IsMantissa.first {mantissa : List Char} {n places : ℕ}
    (isMantissa : IsMantissa mantissa n places) :
    ∃ c cs, mantissa = c :: cs ∧ (c.isDigit = true ∨ c = '.') := by
  cases isMantissa with
  | whole numeral =>
    obtain ⟨c, cs, rfl⟩ := List.exists_cons_of_ne_nil numeral.filled
    exact ⟨c, cs, rfl, .inl (numeral.digits c List.mem_cons_self)⟩
  | @pointed whole fraction n numeral =>
    cases whole with
    | nil => exact ⟨'.', fraction, rfl, .inr rfl⟩
    | cons c cs => exact ⟨c, _, rfl, .inl (numeral.digits c List.mem_cons_self)⟩

private theorem isWord_mantissa {mantissa : List Char} {n places : ℕ}
    (isMantissa : IsMantissa mantissa n places) (power : List Char) {word : String}
    (letter : ∀ c ∈ word.toList.head?, c.isDigit = false ∧ c ≠ '.') :
    isWord (mantissa ++ power) word = false := by
  obtain ⟨c, cs, rfl, first⟩ := IsMantissa.first isMantissa
  have kept : c.toLower = c := first.elim toLower_of_isDigit fun point => by rw [point]; decide
  refine beq_eq_false_iff_ne.mpr fun same => ?_
  obtain ⟨other, apart⟩ := letter c (by rw [← same]; simp [kept])
  exact first.elim (fun digit => by simp [digit] at other) apart

private theorem parse?_mantissa {sign mantissa power : List Char} {negative : Bool} {n places : ℕ}
    {exponent : ℤ} (isSign : IsSign sign negative) (isMantissa : IsMantissa mantissa n places)
    (isPower : IsPower power exponent) :
    parse? (sign ++ (mantissa ++ power)) = some
    (Scaled.mk negative n (exponent - places)).toFloat := by
  have unsigned : ∀ c ∈ (mantissa ++ power).head?, c ≠ '-' ∧ c ≠ '+' := by
    obtain ⟨c, cs, rfl, first⟩ := IsMantissa.first isMantissa
    rintro _ ⟨⟩
    rcases first with digit | rfl
    · exact unsigned_of_isDigit digit
    · exact ⟨by decide, by decide⟩
  have wordless : ∀ word : String, (∀ c ∈ word.toList.head?, c.isDigit = false ∧ c ≠ '.') →
      isWord (mantissa ++ power) word = false := fun _ => isWord_mantissa isMantissa power
  simp only [parse?, splitSign_append isSign unsigned, wordless "inf" (by simp),
    wordless "infinity" (by simp),
    wordless "nan" (by simp), magnitude?_append isMantissa isPower]
  rfl

private theorem splitSign_word {sign word : List Char} {negative : Bool}
    (isSign : IsSign sign negative) {c : Char} {letters : List Char}
    (spelled : word.map Char.toLower = c :: letters) (letter : c ≠ '-' ∧ c ≠ '+') :
    splitSign (sign ++ word) = (negative, word) := by
  refine splitSign_append isSign fun first here => ?_
  cases word with
  | nil => cases here
  | cons d ds =>
    cases here
    obtain ⟨rfl, -⟩ := List.cons_eq_cons.mp spelled
    constructor <;> rintro rfl
    · exact letter.1 rfl
    · exact letter.2 rfl

/-- A text is read as the double that it spells, and not at all if it spells none. -/
theorem parse?_eq_some_iff {cs : List Char} {x : Float} :
    parse? cs = some x ↔ SpellsDouble cs x := by
  constructor
  · intro read
    rcases split : splitSign cs with ⟨negative, rest⟩
    obtain ⟨sign, rfl, isSign⟩ := exists_isSign split
    simp only [parse?, split] at read
    split at read
    · rename_i word
      cases read
      exact .infinite isSign (by simpa [isWord] using word)
    split at read
    · rename_i word
      cases read
      exact .undefined isSign (by simpa [isWord] using word)
    · obtain ⟨⟨n, e⟩, found, rfl⟩ := Option.map_eq_some_iff.mp read
      obtain ⟨mantissa, power, places, exponent, rfl, isMantissa, isPower, rfl⟩ :=
        exists_isMantissa found
      rcases Scaled.toFloat_spelled ⟨negative, n, exponent - places⟩ with rounds | ⟨past, infinite⟩
      · exact .rounded isSign isMantissa isPower rounds
      · rw [infinite]
        exact .large isSign isMantissa isPower past
  · intro spells
    cases spells with
    | rounded isSign isMantissa isPower rounds =>
      rw [parse?_mantissa isSign isMantissa isPower]
      exact congrArg some (Scaled.toFloat_of_roundsTo rounds)
    | large isSign isMantissa isPower past =>
      rw [parse?_mantissa isSign isMantissa isPower]
      exact congrArg some (Scaled.toFloat_of_reach_le past)
    | @infinite sign word negative isSign spelled =>
      have split : splitSign (sign ++ word) = (negative, word) :=
        spelled.elim (fun same => splitSign_word isSign same (by decide)) fun same =>
          splitSign_word isSign same (by decide)
      have named : (isWord word "inf" || isWord word "infinity") = true := by
        simpa [isWord] using spelled
      simp only [parse?, split, named, if_true]
    | @undefined sign word negative isSign spelled =>
      have split : splitSign (sign ++ word) = (negative, word) :=
        splitSign_word isSign spelled (by decide)
      have other : (isWord word "inf" || isWord word "infinity") = false := by
        simp only [isWord, spelled]
        decide
      have named : isWord word "nan" = true := by simpa [isWord] using spelled
      simp only [parse?, split, other, named, Bool.false_eq_true, if_false, if_true]

end Literal

end TextArchive.Number
