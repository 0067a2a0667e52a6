import TextArchive.Proofs.Number.Logarithm

/-!
Which doubles are finite. Every bit pattern is that of a zero, of a finite number, of an infinity or
of no number, and two doubles that compare as equal are the same unless they are zeros.
-/

set_option autoImplicit false
set_option relaxedAutoImplicit false

namespace TextArchive.Number.Binary64

open Float.Model (Format UnpackedFloat totalExponent)
open Float.Model.Format (binary64)
open Float.Model.UnpackedFloat

section Patterns

/-- What a double is by the field of its exponent and by its fraction. -/
inductive Pattern (field fraction : Nat) (s : Sign) : UnpackedFloat → Prop
  | infinity (field_eq : field = 2047) (fraction_eq : fraction = 0) :
      Pattern field fraction s (.infinity s)
  | notANumber (field_eq : field = 2047) (some_digit : 0 < fraction) :
      Pattern field fraction s .notANumber
  | zero (field_eq : field = 0) (fraction_eq : fraction = 0) : Pattern field fraction s (.zero s)
  | subnormal (field_eq : field = 0) (some_digit : 0 < fraction) :
      Pattern field fraction s (.finite s fraction (-1074) some_digit)
  | normal (some_power : 0 < field) (bounded : field < 2047) (positive : 0 < 2 ^ 52 + fraction) :
      Pattern field fraction s (.finite s (2 ^ 52 + fraction) ((field : Int) - 1075) positive)

private theorem pattern_unpack (b : BitVec 64) :
    Pattern (b.toNat / 2 ^ 52 % 2 ^ 11) (b.toNat % 2 ^ 52) (Sign.ofBitVec (@unpackSign binary64 b))
    (unpack binary64 b) := by
  rw [← toNat_unpackExponent, ← toNat_unpackMantissa]
  have field_lt : (@unpackExponent binary64 b).toNat < 2048 := (@unpackExponent binary64 b).isLt
  have bias : (binary64.exponentBias : Int) = 1023 := rfl
  simp only [unpack]
  by_cases full : @unpackExponent binary64 b = -1#11
  · have field_eq : (@unpackExponent binary64 b).toNat = 2047 := congrArg BitVec.toNat full
    rw [if_pos full]
    split
    · rename_i none_left
      exact .infinity field_eq (congrArg BitVec.toNat none_left)
    · rename_i digits
      exact .notANumber field_eq
        (Nat.pos_of_ne_zero fun zero => digits (BitVec.eq_of_toNat_eq zero))
  · have not_full : (@unpackExponent binary64 b).toNat ≠ 2047 := fun value =>
      full (BitVec.eq_of_toNat_eq value)
    rw [if_neg full]
    split
    · rename_i least
      have field_eq : (@unpackExponent binary64 b).toNat = 0 := congrArg BitVec.toNat least
      split
      · rename_i none_left
        exact .zero field_eq (congrArg BitVec.toNat none_left)
      · rename_i digits
        have some_digit : 0 < (@unpackMantissa binary64 b).toNat :=
          Nat.pos_of_ne_zero fun zero => digits (BitVec.eq_of_toNat_eq zero)
        rw [show ((@unpackExponent binary64 b).toNat : Int) - (binary64.exponentBias + (52 : Nat)) + 1 = -1074 by
          rw [field_eq, bias]; rfl]
        exact .subnormal field_eq some_digit
    · rename_i power
      have some_power : 0 < (@unpackExponent binary64 b).toNat :=
        Nat.pos_of_ne_zero fun zero => power (BitVec.eq_of_toNat_eq zero)
      rw [show ((@unpackExponent binary64 b).toNat : Int) - (binary64.exponentBias + (52 : Nat)) =
        ((@unpackExponent binary64 b).toNat : Int) - 1075 by rw [bias]; rfl]
      simp only [toNat_leading]
      exact .normal some_power (by omega) _

private theorem ofBitVec_unpackSign (b : BitVec 64) :
    Sign.ofBitVec (@unpackSign binary64 b) = if signBit ≤
    b.toNat then .negative else .positive := by
  have stored := toNat_unpackSign b
  have bounded : b.toNat < 2 ^ 64 := b.isLt
  unfold Sign.ofBitVec signBit
  by_cases minus : 2 ^ 63 ≤ b.toNat
  · have set : @unpackSign binary64 b ≠ 0#1 := by
      intro unset
      have value := congrArg BitVec.toNat unset
      rw [stored] at value
      simp at value
      omega
    rw [if_neg set, if_pos minus]
  · have unset : @unpackSign binary64 b = 0#1 := by
      refine BitVec.eq_of_toNat_eq ?_
      rw [stored]
      simp
      omega
    rw [if_pos unset, if_neg minus]

private theorem pattern_unpacked (x : Float) :
    Pattern (x.toBits.toNat / 2 ^ 52 % 2 ^ 11) (x.toBits.toNat % 2 ^ 52)
      (if signBit ≤ x.toBits.toNat then .negative else .positive) (unpacked x) := by
  have pattern := pattern_unpack x.toBits.toBitVec
  rw [ofBitVec_unpackSign] at pattern
  exact pattern

theorem exists_pattern (x : Float) :
    ∃ s, Pattern (x.toBits.toNat / 2 ^ 52 % 2 ^ 11) (x.toBits.toNat % 2 ^ 52) s (unpacked x) :=
  ⟨_, pattern_unpacked x⟩

theorem isFinite_eq (x : Float) : isFinite x = (unpacked x).isFinite := by
  obtain ⟨s, pattern⟩ := exists_pattern x
  generalize unpacked x = u at pattern
  simp only [isFinite, parts?, partsOfBits]
  cases pattern with
  | infinity field_eq => rw [if_pos field_eq]; rfl
  | notANumber field_eq => rw [if_pos field_eq]; rfl
  | zero field_eq => rw [if_neg (by omega), if_pos field_eq]; rfl
  | subnormal field_eq => rw [if_neg (by omega), if_pos field_eq]; rfl
  | normal some_power bounded => rw [if_neg (by omega), if_neg (by omega)]; rfl

theorem isNaN_eq (x : Float) : isNaN x = (sign? (unpacked x)).isNone := by
  obtain ⟨s, pattern⟩ := exists_pattern x
  generalize unpacked x = u at pattern
  have bounded : x.toBits.toNat < 2 ^ 64 := x.toBits.toNat_lt
  unfold isNaN infinityBits signBit
  cases pattern <;> simp only [sign?, Option.isNone_some, Option.isNone_none,
    decide_eq_false_iff_not, decide_eq_true_eq]
  all_goals omega

theorem finite_bounds {x : Float} {s : Sign} {m : Nat} {e : Int} {positive : 0 < m}
    (parts : unpacked x = .finite s m e positive) : m < 2 ^ 53 ∧ -1074 ≤ e ∧ e ≤ 971 := by
  obtain ⟨s', pattern⟩ := exists_pattern x
  rw [parts] at pattern
  cases pattern <;> omega

theorem parts_of_isFinite {x : Float} (finite : isFinite x = true) :
    (∃ s, unpacked x = .zero s) ∨ ∃ s m e positive, unpacked x = .finite s m e positive := by
  rw [isFinite_eq] at finite
  cases parts : unpacked x with
  | zero s => exact .inl ⟨s, rfl⟩
  | finite s m e positive => exact .inr ⟨s, m, e, positive, rfl⟩
  | notANumber =>
    rw [parts] at finite
    cases finite
  | infinity s =>
    rw [parts] at finite
    cases finite

private theorem Pattern.unique {field fraction field' fraction' : Nat} {s s' : Sign}
    {u u' : UnpackedFloat} (first : Pattern field fraction s u)
    (second : Pattern field' fraction' s' u') (same : u = u') (number : u ≠ .notANumber)
    (short : fraction < 2 ^ 52) (short' : fraction' < 2 ^ 52) :
    field = field' ∧ fraction = fraction' ∧ s = s' := by
  cases first <;> cases second <;> simp only [reduceCtorEq, UnpackedFloat.infinity.injEq,
    UnpackedFloat.zero.injEq, UnpackedFloat.finite.injEq] at same
  case notANumber.notANumber => exact absurd rfl number
  case infinity.infinity => exact ⟨by omega, by omega, same⟩
  case zero.zero => exact ⟨by omega, by omega, same⟩
  all_goals
    obtain ⟨sign, digits, place⟩ := same
    exact ⟨by omega, by omega, sign⟩

private theorem eq_of_unpacked {x y : Float} (same : unpacked x = unpacked y)
    (number : isNaN x = false) : x = y := by
  have defined : unpacked x ≠ .notANumber := by
    rw [isNaN_eq] at number
    intro undefined
    rw [undefined] at number
    cases number
  obtain ⟨field, fraction, sign⟩ := (pattern_unpacked x).unique (pattern_unpacked y) same defined
    (Nat.mod_lt _ (by decide)) (Nat.mod_lt _ (by decide))
  have bounded : x.toBits.toNat < 2 ^ 64 := x.toBits.toNat_lt
  have bounded' : y.toBits.toNat < 2 ^ 64 := y.toBits.toNat_lt
  have bits : x.toBits.toNat = y.toBits.toNat := by
    unfold signBit at sign
    split at sign <;> split at sign
    · omega
    · cases sign
    · cases sign
    · omega
  obtain ⟨⟨a, _⟩⟩ := x
  obtain ⟨⟨b, _⟩⟩ := y
  obtain rfl : a = b := UInt64.toNat_inj.mp bits
  rfl

private theorem zero_of_unpacked {x : Float} {s : Sign} (parts : unpacked x = .zero s) :
    x = 0.0 ∨ x = -0.0 := by
  have number : isNaN x = false := by
    rw [isNaN_eq, parts]
    rfl
  cases s with
  | positive => exact .inl (eq_of_unpacked (parts.trans rfl) number)
  | negative => exact .inr (eq_of_unpacked (parts.trans rfl) number)

private theorem eq_of_compare {u v : UnpackedFloat} (same : u.compare v = some .eq) :
    u = v ∨ ∃ s s', u = .zero s ∧ v = .zero s' := by
  cases u with
  | notANumber => cases same
  | zero s =>
    cases v with
    | zero s' => exact .inr ⟨s, s', rfl, rfl⟩
    | notANumber => cases same
    | infinity s' => cases s' <;> cases same
    | finite s' => cases s' <;> cases same
  | infinity s =>
    refine .inl ?_
    cases v with
    | infinity s' => cases s <;> cases s' <;> first | rfl | cases same
    | _ => cases s <;> cases same
  | finite s m e positive =>
    refine .inl ?_
    cases v with
    | finite s' m' e' positive' =>
      cases s <;> cases s' <;> simp only [UnpackedFloat.compare, Option.some.injEq, reduceCtorEq,
        Ordering.swap_eq_eq, Ordering.then_eq_eq, compare_eq_iff_eq] at same
      all_goals
        obtain ⟨rfl, rfl⟩ := same
        rfl
    | notANumber => cases same
    | zero => cases s <;> cases same
    | infinity s' => cases s' <;> cases same

theorem eq_of_beq {x y : Float} (same : (x == y) = true) :
    x = y ∨ (x = 0.0 ∨ x = -0.0) ∧ (y = 0.0 ∨ y = -0.0) := by
  have compared : (unpacked x).compare (unpacked y) = some .eq := by
    have beq : UnpackedFloat.beq (unpacked x) (unpacked y) = true := same
    simpa [UnpackedFloat.beq] using beq
  rcases eq_of_compare compared with parts | ⟨s, s', one, two⟩
  · refine .inl (eq_of_unpacked parts ?_)
    rw [isNaN_eq]
    cases one : unpacked x with
    | notANumber =>
      rw [one] at compared
      cases compared
    | _ => rfl
  · exact .inr ⟨zero_of_unpacked one, zero_of_unpacked two⟩

end Patterns

end TextArchive.Number.Binary64
