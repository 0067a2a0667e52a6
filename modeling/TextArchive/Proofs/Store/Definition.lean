import Mathlib
import TextArchive.Store.Config
import TextArchive.Store.Statement

/-!
The statement that defines a collection. A configuration is accepted just if its collection matches
the pattern of names and its tokenizer specification is not blank and free of quotes and semicolons.
Such a name and such a specification leave the shape of the statement as it is, and both can be read
back from it.
-/

set_option autoImplicit false
set_option relaxedAutoImplicit false

namespace TextArchive.Store

namespace Name

def oneOf (characters : List Char) : RegularExpression Char :=
  (characters.map RegularExpression.char).sum

def range (first last : Char) : List Char :=
  (List.range' first.toNat (last.toNat + 1 - first.toNat)).map Char.ofNat

def firsts : List Char :=
  range 'A' 'Z' ++ range 'a' 'z' ++ ['_']

def nexts : List Char :=
  range 'A' 'Z' ++ range 'a' 'z' ++ range '0' '9' ++ ['_']

/-- The pattern of names, `[A-Za-z_][A-Za-z0-9_]*`. -/
def pattern : RegularExpression Char :=
  oneOf firsts * (oneOf nexts).star

private theorem mem_oneOf {characters x : List Char} :
    x ∈ (oneOf characters).matches' ↔ ∃ c ∈ characters, x = [c] := by
  induction characters with
  | nil => simp [oneOf, RegularExpression.matches'_zero]
  | cons c characters ih =>
    have step : (oneOf (c :: characters)).matches' = {[c]} + (oneOf characters).matches' := by
      simp [oneOf]
    have alone : x ∈ ({[c]} : Language Char) ↔ x = [c] := Iff.rfl
    rw [step, Language.mem_add, alone, ih]
    simp

private theorem mem_star_oneOf {characters x : List Char} :
    x ∈ (oneOf characters).star.matches' ↔ ∀ c ∈ x, c ∈ characters := by
  rw [RegularExpression.matches'_star, Language.mem_kstar]
  constructor
  · rintro ⟨pieces, rfl, single⟩ c member
    obtain ⟨piece, among, inside⟩ := List.mem_flatten.mp member
    obtain ⟨d, allowed, rfl⟩ := mem_oneOf.mp (single piece among)
    rwa [List.mem_singleton.mp inside]
  · intro allowed
    refine ⟨x.map ([·]), (List.flatMap_singleton' x).symm, fun piece among => ?_⟩
    obtain ⟨c, member, rfl⟩ := List.mem_map.mp among
    exact mem_oneOf.mpr ⟨c, allowed c member, rfl⟩

private theorem mem_range {first last c : Char} (ascii : last.toNat < 128) :
    c ∈ range first last ↔ first.toNat ≤ c.toNat ∧ c.toNat ≤ last.toNat := by
  rw [range, List.mem_map]
  constructor
  · rintro ⟨n, member, rfl⟩
    have bounds := List.mem_range'_1.mp member
    have code : (Char.ofNat n).toNat = n := by
      rw [Char.ofNat, dif_pos (.inl (by omega))]
      rfl
    omega
  · rintro ⟨low, high⟩
    exact ⟨c.toNat, List.mem_range'_1.mpr (by omega), Char.ofNat_toNat c⟩

private theorem isFirst_iff (c : Char) : isFirst c = true ↔ c ∈ firsts := by
  simp only [isFirst, Char.isAlpha, Char.isUpper, Char.isLower, Bool.or_eq_true, Bool.and_eq_true,
    decide_eq_true_eq, ge_iff_le, UInt32.le_iff_toNat_le, firsts, List.mem_append,
    List.mem_singleton]
  rw [mem_range (by decide), mem_range (by decide)]
  rfl

private theorem isNext_iff (c : Char) : isNext c = true ↔ c ∈ nexts := by
  have digit : c.isDigit = true ↔ c ∈ range '0' '9' := by
    simp only [Char.isDigit, Bool.and_eq_true, decide_eq_true_eq, ge_iff_le, UInt32.le_iff_toNat_le]
    rw [mem_range (by decide)]
    rfl
  have first := isFirst_iff c
  simp only [isFirst, isNext, Char.isAlphanum, Bool.or_eq_true, decide_eq_true_eq, firsts, nexts,
    List.mem_append, List.mem_singleton, digit] at first ⊢
  tauto

private theorem isNext_of_isFirst {c : Char} (first : isFirst c = true) : isNext c = true := by
  simp only [isFirst, isNext, Char.isAlphanum, Bool.or_eq_true] at first ⊢
  exact first.imp_left .inl

theorem isName_iff (s : String) : isName s = true ↔ s.toList ∈ pattern.matches' := by
  rw [pattern, RegularExpression.matches'_mul, Language.mem_mul]
  simp only [mem_oneOf, mem_star_oneOf]
  constructor
  · intro named
    unfold isName at named
    split at named
    · cases named
    · rename_i c rest text
      obtain ⟨first, next⟩ := Bool.and_eq_true_iff.mp named
      refine ⟨[c], ⟨c, (isFirst_iff c).mp first, rfl⟩, rest, fun d member => ?_, text.symm⟩
      exact (isNext_iff d).mp (List.all_eq_true.mp next d member)
  · rintro ⟨_, ⟨c, first, rfl⟩, rest, next, text⟩
    have named : (isFirst c && rest.all isNext) = true := by
      rw [(isFirst_iff c).mpr first, Bool.true_and]
      exact List.all_eq_true.mpr fun d member => (isNext_iff d).mpr (next d member)
    unfold isName
    rw [← text]
    exact named

private theorem isNext_of_isName {s : String} (named : isName s = true) :
    ∀ c ∈ s.toList, isNext c = true := by
  unfold isName at named
  split at named
  · cases named
  · rename_i c rest text
    obtain ⟨first, next⟩ := Bool.and_eq_true_iff.mp named
    rw [text]
    exact List.forall_mem_cons.mpr ⟨isNext_of_isFirst first, List.all_eq_true.mp next⟩

end Name

namespace Statement

/-- A text in two: what stands before and after the first place of a mark. -/
def cut? (mark : List Char) : List Char → Option (List Char × List Char)
  | [] => if mark.isEmpty then some ([], []) else none
  | c :: text =>
    if mark.isPrefixOf (c :: text) then some ([], (c :: text).drop mark.length)
    else (cut? mark text).map fun (before, after) => (c :: before, after)

/-- What stands between the first place of a mark and the next place of another. -/
def between? (opening closing text : List Char) : Option (List Char) := do
  let (_, rest) ← cut? opening text
  let (inner, _) ← cut? closing rest
  return inner

/-- The characters that end a quoted text or a statement. -/
def isMark (c : Char) : Bool :=
  c = '\'' || c = '"' || c = ';'

/-- The shape of the statement that defines a collection: the specification between the only quotes,
the name in its place, and a semicolon at the end and nowhere else. -/
structure HasShape (text collection tokenizer : String) : Prop where
  quotes : text.toList.count '\'' = 2
  no_double_quote : '"' ∉ text.toList
  semicolons : text.toList.count ';' = 1
  ends : text.toList.getLast? = some ';'
  specification : between? ['\''] ['\''] text.toList = some tokenizer.toList
  name : between? "IF NOT EXISTS ".toList " USING fts5(".toList text.toList = some collection.toList

private theorem cut?_append {a : Char} {before : List Char} (absent : a ∉ before)
    (mark after : List Char) :
    cut? (a :: mark) (before ++ a :: (mark ++ after)) = some (before, after) := by
  induction before with
  | nil => simp [cut?]
  | cons c before ih =>
    obtain ⟨other, absent⟩ := not_or.mp (mt List.mem_cons.mpr absent)
    simp [cut?, other, ih absent]

private theorem between?_eq {opening closing text before rest inner after : List Char}
    (opened : cut? opening text = some (before, rest))
    (closed : cut? closing rest = some (inner, after)) :
    between? opening closing text = some inner := by
  simp only [between?, opened, closed, Option.bind_eq_bind, Option.bind_some, Option.pure_def]

private theorem isMark_eq_false_iff (c : Char) :
    isMark c = false ↔ c ≠ '\'' ∧ c ≠ '"' ∧ c ≠ ';' := by
  simp [isMark, and_assoc]

private theorem forall_isMark_eq_false_iff {text : List Char} :
    (∀ c ∈ text, isMark c = false) ↔ '\'' ∉ text ∧ '"' ∉ text ∧ ';' ∉ text := by
  simp only [isMark_eq_false_iff]
  constructor
  · intro plain
    exact ⟨fun member => (plain _ member).1 rfl, fun member => (plain _ member).2.1 rfl,
      fun member => (plain _ member).2.2 rfl⟩
  · rintro ⟨quote, doubleQuote, semicolon⟩ c member
    exact ⟨fun same => quote (same ▸ member), fun same => doubleQuote (same ▸ member),
      fun same => semicolon (same ▸ member)⟩

private theorem isMark_eq_false_of_isNext {c : Char} (next : Name.isNext c = true) :
    isMark c = false := by
  rw [isMark_eq_false_iff]
  refine ⟨?_, ?_, ?_⟩
  all_goals
    rintro rfl
    exact absurd next (by decide)

@[simp] theorem marks_createHead : createHead.toList.filter isMark = [] := by decide +kernel

@[simp] theorem marks_createMiddle : createMiddle.toList.filter isMark = [] := by decide +kernel

@[simp] theorem marks_createTail : createTail.toList.filter isMark = [';'] := by decide +kernel

private theorem take_createMiddle : createMiddle.toList.take 12 = " USING fts5(".toList := by
  decide +kernel

private theorem cut?_createHead (text : List Char) :
    cut? "IF NOT EXISTS ".toList (createHead.toList ++ text) = some ("CREATE VIRTUAL TABLE ".toList, text) := by
  simp [createHead, cut?]

private theorem toList_create (collection tokenizer : String) :
    (create collection tokenizer).toList =
    createHead.toList ++ (collection.toList ++ (createMiddle.toList ++ ('\'' :: (tokenizer.toList ++
      ('\'' :: createTail.toList))))) := by
  simp [create, String.toList_append]

section Splicing

variable {collection tokenizer : String} (named : ∀ c ∈ collection.toList, Name.isNext c = true)
  (plain : ∀ c ∈ tokenizer.toList, isMark c = false)
include named plain

private theorem marks_create : (create collection tokenizer).toList.filter isMark =
    ['\'', '\'', ';'] := by
  have name : collection.toList.filter isMark = [] :=
    List.filter_eq_nil_iff.mpr fun c member => by simp [isMark_eq_false_of_isNext (named c member)]
  have specification : tokenizer.toList.filter isMark = [] :=
    List.filter_eq_nil_iff.mpr fun c member => by simp [plain c member]
  have quote : isMark '\'' = true := rfl
  simp [toList_create, name, specification, quote]

private theorem count_create {mark : Char} (isMark_mark : isMark mark = true) :
    (create collection tokenizer).toList.count mark = ['\'', '\'', ';'].count mark := by
  rw [← marks_create named plain, List.count_filter isMark_mark]

private theorem specification_create :
    between? ['\''] ['\''] (create collection tokenizer).toList = some tokenizer.toList := by
  have unquoted {text : List Char} (unmarked : text.filter isMark = []) :
    '\'' ∉ text := fun member =>
    List.filter_eq_nil_iff.mp unmarked _ member rfl
  have name : '\'' ∉ collection.toList := fun member => by
    have other := isMark_eq_false_of_isNext (named _ member)
    cases other
  have specification : '\'' ∉ tokenizer.toList := fun member => by
    have other := plain _ member
    cases other
  have front : '\'' ∉ createHead.toList ++ (collection.toList ++ createMiddle.toList) := by
    simp only [List.mem_append, not_or]
    exact ⟨unquoted marks_createHead, name, unquoted marks_createMiddle⟩
  have opened := cut?_append front [] (tokenizer.toList ++ '\'' :: createTail.toList)
  have closed := cut?_append specification [] createTail.toList
  rw [List.append_assoc, List.append_assoc] at opened
  rw [toList_create]
  exact between?_eq opened closed

omit plain in
private theorem name_create : between? "IF NOT EXISTS ".toList " USING fts5(".toList
    (create collection tokenizer).toList =
    some collection.toList := by
  have name : ' ' ∉ collection.toList := fun member => by
    have next := named _ member
    cases next
  have mark : " USING fts5(".toList = ' ' :: "USING fts5(".toList := by decide +kernel
  have middle : createMiddle.toList = ' ' :: ("USING fts5(".toList ++ createMiddle.toList.drop 12) := by
    rw [← List.cons_append, ← mark, ← take_createMiddle, List.take_append_drop]
  rw [toList_create, mark, middle, List.cons_append, List.append_assoc]
  exact between?_eq (cut?_createHead _) (cut?_append name _ _)

theorem hasShape_create : HasShape (create collection tokenizer) collection tokenizer where
  quotes := count_create named plain rfl
  no_double_quote := List.count_eq_zero.mp (count_create named plain rfl)
  semicolons := count_create named plain rfl
  ends := by
    rw [toList_create]
    simp [createTail, List.getLast?_cons, List.getLast?_append]
  specification := specification_create named plain
  name := name_create named

end Splicing

end Statement

theorem isSpecification_iff (s : String) : isSpecification s = true ↔
    (∃ c ∈ s.toList, Text.isBlank c = false) ∧ ∀ c ∈ s.toList, Statement.isMark c = false := by
  simp [isSpecification, Text.allBlank, Statement.isMark_eq_false_iff, and_assoc]

namespace Config

theorem validate_eq_ok_iff (c : Config) :
    c.validate = .ok () ↔ Name.isName c.collection = true ∧ isSpecification c.tokenizer = true := by
  unfold validate
  split <;> simp_all

/-- What is spliced into the statement for an accepted configuration. -/
theorem hasShape_of_validate {c : Config} (accepted : c.validate = .ok ()) :
    Statement.HasShape (Statement.create c.collection c.tokenizer) c.collection c.tokenizer := by
  obtain ⟨named, specified⟩ := (validate_eq_ok_iff c).mp accepted
  exact Statement.hasShape_create (Name.isNext_of_isName named)
    ((isSpecification_iff _).mp specified).2

/-- A configuration is accepted just if its collection matches the pattern of names and its
specification is not blank and without quotes and semicolons. The statement that defines its
collection then has the shape that it should have, and configurations with another name or
specification have other statements. -/
theorem accepted_keeps_shape (c : Config) :
    (c.validate = .ok () ↔ c.collection.toList ∈ Name.pattern.matches' ∧
      (∃ x ∈ c.tokenizer.toList, Text.isBlank x = false) ∧
      '\'' ∉ c.tokenizer.toList ∧ '"' ∉ c.tokenizer.toList ∧ ';' ∉ c.tokenizer.toList) ∧
    (c.validate = .ok () →
      Statement.HasShape (Statement.create c.collection c.tokenizer) c.collection c.tokenizer ∧
      ∀ d : Config, d.validate = .ok () →
        Statement.create c.collection c.tokenizer = Statement.create d.collection d.tokenizer →
          c.collection = d.collection ∧ c.tokenizer = d.tokenizer) := by
  refine ⟨?_, fun accepted => ⟨hasShape_of_validate accepted, fun d accepted' same => ?_⟩⟩
  · rw [validate_eq_ok_iff, isSpecification_iff, Name.isName_iff,
      Statement.forall_isMark_eq_false_iff]
  · have shape := hasShape_of_validate accepted
    have shape' := hasShape_of_validate accepted'
    rw [← same] at shape'
    exact ⟨String.toList_inj.mp (Option.some.inj (shape.name.symm.trans shape'.name)),
      String.toList_inj.mp (Option.some.inj (shape.specification.symm.trans shape'.specification))⟩

theorem accepted_keeps_shape_of_two :
    let c : Config := { collection := "notes_1", tokenizer := "IF NOT EXISTS a USING fts5(" }
    let d : Config := { collection := "notes_1", tokenizer := "porter unicode61" }
    c.validate = .ok () ∧ d.validate = .ok () ∧
      Statement.HasShape (Statement.create c.collection c.tokenizer) c.collection c.tokenizer ∧
      Statement.create c.collection c.tokenizer ≠ Statement.create d.collection d.tokenizer ∧
      Config.validate { tokenizer := "a'b" } ≠ .ok () := by
  intro c d
  have accepted : c.validate = .ok () := (validate_eq_ok_iff c).mpr (by decide +kernel)
  have accepted' : d.validate = .ok () := (validate_eq_ok_iff d).mpr (by decide +kernel)
  obtain ⟨shape, apart⟩ := (accepted_keeps_shape c).2 accepted
  refine ⟨accepted, accepted', shape, fun same => ?_, fun quoted => ?_⟩
  · exact absurd (apart d accepted' same).2 (by decide +kernel)
  · exact ((accepted_keeps_shape _).1.mp quoted).2.2.1 (by decide +kernel)

end Config

end TextArchive.Store
