import TextArchive.Command.Request
import TextArchive.Proofs.Command.Values
import Mathlib.Logic.Function.Basic

/-!
Reading command lines on which every parameter has its value attached. What a subcommand is given is
for each of its parameters the text on the command line, or else that of the variable which stands
in for it.
-/

set_option autoImplicit false
set_option relaxedAutoImplicit false

namespace TextArchive.Command

open TextArchive.File (Path)

/-- A parameter with the text that is attached to it. -/
abbrev Setting := Parameter × String

def Setting.argument (setting : Setting) : String :=
  "--" ++ setting.1.name ++ "=" ++ setting.2

/-- The text of the variable that stands in for a parameter. -/
def Parameter.standIn? (environment : Environment) (p : Parameter) : Option String :=
  p.variableName?.bind fun name => environment.lookup name

/-- The text that a parameter has after settings on the command line, which come before its
variable. -/
def textOf? (environment : Environment) (settings : List Setting) (p : Parameter) : Option String :=
  (settings.lookup p).or (p.standIn? environment)

/-- The count that a text spells, if it spells one. -/
def count? (text : String) : Option Nat :=
  (readCount text.toList).toOption

/-- The decimals that a text spells with commas between them, if it spells any. -/
def decimals? (text : String) : Option (List Float) :=
  ((Text.Split.pieces (· = ',') text.toList).mapM readDecimal).toOption

theorem count?_eq_some_iff (text : String) (n : ℕ) : count? text = some n ↔ SpellsCount text n := by
  rw [count?, ← readCount_eq_ok_iff]
  cases readCount text.toList <;> simp [Except.toOption]

theorem decimals?_eq_some_iff (text : String) (xs : List Float) :
    decimals? text = some xs ↔ SpellsDoubles text xs := by
  rw [decimals?, ← readDecimals_eq_ok_iff]
  cases (Text.Split.pieces (· = ',') text.toList).mapM readDecimal <;> simp [Except.toOption]

/-- Whether a parameter takes a text as its value. -/
def Parameter.Takes (p : Parameter) (text : String) : Prop :=
  match p.kind with
  | .path => text ≠ ""
  | .count => (count? text).isSome
  | .text => True
  | .decimals => (decimals? text).isSome
  | .flag => False

def Given.ofTexts (text? : Parameter → Option String) : Given where
  db := (text? .db).map .ofString
  root := (text? .root).map .ofString
  batchSize := (text? .batchSize).bind count?
  maxFiles := (text? .maxFiles).bind count?
  limitBytes := (text? .limitBytes).bind count?
  tag := text? .tag
  collection := text? .collection
  tokenizer := text? .tokenizer
  rankWeights := (text? .rankWeights).bind decimals?
  query := text? .query
  topK := (text? .topK).bind count?

section Texts

variable {p : Parameter} {text : String} {text? : Parameter → Option String}

private theorem exists_count (spelled : (count? text).isSome) :
    ∃ n, count? text = some n ∧ ∀ p, Given.count p text = .ok n := by
  unfold count? at spelled ⊢
  unfold Given.count
  cases read : readCount text.toList with
  | error e => simp [read, Except.toOption] at spelled
  | ok n => exact ⟨n, rfl, fun _ => rfl⟩

private theorem exists_decimals (spelled : (decimals? text).isSome) :
    ∃ xs, decimals? text = some xs ∧ ∀ p, Given.decimals p text = .ok xs := by
  unfold decimals? at spelled ⊢
  unfold Given.decimals
  cases read : (Text.Split.pieces (· = ',') text.toList).mapM readDecimal with
  | error e => simp [read, Except.toOption] at spelled
  | ok xs =>
    refine ⟨xs, rfl, fun p => mapM_ok_iff.mpr ((mapM_ok_iff.mp read).imp fun piece x ok => ?_)⟩
    rw [ok]
    rfl

private theorem set_ofTexts (takes : p.Takes text) (free : text? p = none) :
    (Given.ofTexts text?).set p text =
    .ok (Given.ofTexts (Function.update text? p (some text))) := by
  cases p with
  | db | root =>
    have filled : text.isEmpty = false := by simpa using (show text ≠ "" from takes)
    simp [Given.set, Given.ofTexts, Given.path, filled, Function.update]
  | batchSize | maxFiles | limitBytes | topK =>
    obtain ⟨n, spelled, read⟩ := exists_count (show (count? text).isSome from takes)
    simp [Given.set, Given.ofTexts, Function.update, read, spelled]
  | rankWeights =>
    obtain ⟨xs, spelled, read⟩ := exists_decimals (show (decimals? text).isSome from takes)
    simp [Given.set, Given.ofTexts, Function.update, read, spelled, free]
  | tag | collection | tokenizer | query => simp [Given.set, Given.ofTexts, Function.update]
  | json | verbose => exact takes.elim

private theorem has_ofTexts (takes : ∀ text, text? p = some text → p.Takes text) :
    (Given.ofTexts text?).has p = (text? p).isSome := by
  cases there : text? p with
  | none => cases p <;> simp [Given.has, Given.ofTexts, there]
  | some text =>
    have taken := takes text there
    cases p with
    | json | verbose => exact taken.elim
    | batchSize | maxFiles | limitBytes | topK =>
      simpa [Given.has, Given.ofTexts, there] using (show (count? text).isSome from taken)
    | rankWeights => simpa [Given.has, Given.ofTexts,
      there] using (show (decimals? text).isSome from taken)
    | _ => simp [Given.has, Given.ofTexts, there]

private theorem add_ofTexts (takes : p.Takes text) (free : text? p = none) :
    (Given.ofTexts text?).add p text =
    .ok (Given.ofTexts (Function.update text? p (some text))) := by
  have unset : (Given.ofTexts text?).has p = false := by
    rw [has_ofTexts (by simp [free]), free]
    rfl
  rw [Given.add, unset, set_ofTexts takes free]
  rfl

private theorem addVariable_ofTexts (environment : Environment)
    (takes : ∀ text, (text? p).or (p.standIn? environment) = some text → p.Takes text) :
    (Given.ofTexts text?).addVariable environment p =
      .ok (Given.ofTexts (Function.update text? p ((text? p).or (p.standIn? environment)))) := by
  unfold Given.addVariable
  rw [show (p.variableName?.bind fun name => environment.lookup name) = p.standIn? environment from rfl]
  cases there : text? p with
  | some text =>
    have set : (Given.ofTexts text?).has p = true := by
      rw [has_ofTexts fun other here => takes other (by rw [here, Option.some_or]), there]
      rfl
    have same : Function.update text? p (some text) = text? :=
      there ▸ Function.update_eq_self p text?
    rw [Option.some_or, same]
    cases p.standIn? environment with
    | none => rfl
    | some other => simp [set]
  | none =>
    have unset : (Given.ofTexts text?).has p = false := by
      rw [has_ofTexts (by simp [there]), there]
      rfl
    rw [Option.none_or]
    cases stands : p.standIn? environment with
    | none =>
      rw [show Function.update text? p none = text? from there ▸ Function.update_eq_self p text?]
    | some text =>
      simp only [unset, Bool.false_eq_true, if_false]
      exact set_ofTexts (takes text (by rw [there, stands, Option.none_or])) there

private theorem addVariables_ofTexts (environment : Environment) {ps : List Parameter}
    (takes : ∀ p ∈ ps, ∀ text, (text? p).or (p.standIn? environment) = some text → p.Takes text) :
    ps.foldlM (Given.addVariable environment) (Given.ofTexts text?) =
      .ok (Given.ofTexts fun p => if p ∈ ps then (text? p).or (p.standIn? environment) else
      text? p) := by
  induction ps generalizing text? with
  | nil => simp [pure, Except.pure]
  | cons p ps ih =>
    obtain ⟨first, others⟩ := List.forall_mem_cons.mp takes
    rw [List.foldlM_cons, addVariable_ofTexts environment first]
    have again : ∀ q, (Function.update text? p ((text? p).or (p.standIn? environment)) q).or
      (q.standIn? environment) =
        (text? q).or (q.standIn? environment) := by
      intro q
      by_cases same : q = p
      · subst same
        rw [Function.update_self, Option.or_assoc, Option.or_self]
      · rw [Function.update_of_ne same]
    refine (ih fun q member text there => others q member text (again q ▸ there)).trans ?_
    refine congrArg (fun texts => Except.ok (Given.ofTexts texts)) (funext fun q => ?_)
    rw [again]
    by_cases same : q = p
    · subst same
      by_cases later : q ∈ ps <;> simp [later]
    · simp [same]

end Texts

section Arguments

private theorem Word.ofText_attached {name : String} (filled : name.toList ≠ [])
    (plain : '=' ∉ name.toList) (text : String) :
    Word.ofText ("--" ++ name ++ "=" ++ text) = .long name (some text) := by
  obtain ⟨c, cs, named⟩ := List.exists_cons_of_ne_nil filled
  have chars : ("--" ++ name ++ "=" ++ text).toList = '-' :: '-' :: (name.toList ++ '=' :: text.toList) := by
    simp [String.toList_append]
  have kept : ∀ c ∈ name.toList, decide (c ≠ '=') = true := fun c member => by
    simpa using fun h : c = '=' => plain (h ▸ member)
  have front : (name.toList ++ '=' :: text.toList).takeWhile (· ≠ '=') = name.toList := by
    rw [List.takeWhile_append_of_pos kept]
    simp
  have back : (name.toList ++ '=' :: text.toList).dropWhile (· ≠ '=') = '=' :: text.toList := by
    rw [List.dropWhile_append_of_pos kept]
    simp
  have long : Word.ofText ("--" ++ name ++ "=" ++ text) =
      .long (String.ofList ((name.toList ++ '=' :: text.toList).takeWhile (· ≠ '=')))
        ((((name.toList ++ '=' :: text.toList).dropWhile (· ≠ '=')).tail?).map String.ofList) := by
    unfold Word.ofText
    rw [chars, named]
    rfl
  rw [long, front, back]
  simp

private theorem parameter?_name : ∀ {s : Subcommand} {p : Parameter}, p ∈ s.parameters →
    s.parameter? p.name = some p := by
  intro s p
  cases s <;> cases p <;> decide +kernel

private theorem Setting.ofText_argument (setting : Setting) :
    Word.ofText setting.argument = .long setting.1.name (some setting.2) := by
  have named : setting.1.name.toList ≠ [] ∧ '=' ∉ setting.1.name.toList := by
    cases setting.1 <;> decide +kernel
  exact Word.ofText_attached named.1 named.2 setting.2

variable {s : Subcommand} {text? : Parameter → Option String}

private theorem readLong_attached {p : Parameter} {text : String} (known : p ∈ s.parameters)
    (takes : p.Takes text) (free : text? p = none) :
    Reading.readLong s ⟨Given.ofTexts text?, none⟩ p.name (some text) =
      .ok ⟨Given.ofTexts (Function.update text? p (some text)), none⟩ := by
  have named : p.name ≠ "help" := by
    cases p <;> decide +kernel
  unfold Reading.readLong
  rw [if_neg named, parameter?_name known]
  simp only [Reading.settle]
  have added := add_ofTexts takes free
  unfold Parameter.Takes at takes
  cases kind : p.kind with
  | flag =>
    rw [kind] at takes
    exact takes.elim
  | _ => simp [added, bind, Except.bind, Except.mapError, pure, Except.pure]

private theorem lookup_of_mem {settings : List Setting} (once : (settings.map (·.1)).Nodup)
    {setting : Setting}
    (member : setting ∈ settings) : settings.lookup setting.1 = some setting.2 := by
  induction settings with
  | nil => cases member
  | cons first rest ih =>
    obtain ⟨apart, once⟩ := List.nodup_cons.mp once
    rw [List.lookup_cons]
    rcases List.mem_cons.mp member with rfl | later
    · simp
    · have skipped : (setting.1 == first.1) = false := by
        simpa using fun same : setting.1 = first.1 =>
          apart (List.mem_map.mpr ⟨setting, later, same⟩)
      rw [skipped]
      exact ih once later

private theorem readAll_settings {settings : List Setting} (once : (settings.map (·.1)).Nodup)
    (known : ∀ setting ∈ settings, setting.1 ∈ s.parameters)
    (takes : ∀ setting ∈ settings, setting.1.Takes setting.2)
    (free : ∀ setting ∈ settings, text? setting.1 = none) :
    Reading.readAll s ⟨Given.ofTexts text?, none⟩ (settings.map Setting.argument) =
      .ok (Given.ofTexts fun p => (settings.lookup p).or (text? p)) := by
  induction settings generalizing text? with
  | nil => simp [Reading.readAll, Reading.settle]
  | cons setting rest ih =>
    obtain ⟨p, text⟩ := setting
    obtain ⟨apart, once⟩ := List.nodup_cons.mp once
    obtain ⟨known, known'⟩ := List.forall_mem_cons.mp known
    obtain ⟨taken, takes⟩ := List.forall_mem_cons.mp takes
    obtain ⟨unset, free⟩ := List.forall_mem_cons.mp free
    have other : ∀ setting ∈ rest, setting.1 ≠ p := by
      rintro setting member rfl
      exact apart (List.mem_map.mpr ⟨setting, member, rfl⟩)
    simp only [List.map_cons, Reading.readAll, Setting.ofText_argument,
      readLong_attached known taken unset]
    refine (ih once known' takes fun setting member => ?_).trans ?_
    · rw [Function.update_of_ne (other setting member)]
      exact free setting member
    · refine congrArg (fun texts => Except.ok (Given.ofTexts texts)) (funext fun q => ?_)
      by_cases same : q = p
      · subst same
        have later : rest.lookup q = none :=
          List.lookup_eq_none_iff.mpr fun setting member =>
            by simpa using (other setting member).symm
        simp [later]
      · have skipped : (q == p) = false := by simpa using same
        simp [List.lookup_cons, skipped, same]

end Arguments

private theorem givenTo_settings {s : Subcommand} (environment : Environment)
    {settings : List Setting} (once : (settings.map (·.1)).Nodup)
    (known : ∀ setting ∈ settings, setting.1 ∈ s.parameters)
    (takes : ∀ p ∈ s.parameters, ∀ text,
    textOf? environment settings p = some text → p.Takes text) :
    Request.givenTo s environment (settings.map Setting.argument) =
      .ok (Given.ofTexts fun p => if p ∈ s.parameters then textOf? environment settings p else
      none) := by
  have blank : ({} : Given) = Given.ofTexts fun _ => none := rfl
  have read : Reading.readAll s ⟨Given.ofTexts fun _ => none,
    none⟩ (settings.map Setting.argument) =
      .ok (Given.ofTexts fun p => (settings.lookup p).or none) := by
    refine readAll_settings once known (fun setting member => ?_) fun _ _ => rfl
    refine takes setting.1 (known setting member) setting.2 ?_
    rw [textOf?, lookup_of_mem once member, Option.some_or]
  unfold Request.givenTo
  rw [blank, read]
  simp only [Option.or_none, bind, Except.bind]
  rw [addVariables_ofTexts environment takes]
  refine congrArg (fun texts => Except.ok (Given.ofTexts texts)) (funext fun p => ?_)
  split
  · rfl
  · rename_i unknown
    refine List.lookup_eq_none_iff.mpr fun setting member => ?_
    simpa using fun same : p = setting.1 => unknown (same ▸ known setting member)

def Subcommand.commandLine (s : Subcommand) (settings : List Setting) : List String :=
  s.name :: settings.map Setting.argument

/-- The request of a command line is that of the texts of its parameters. -/
theorem read_commandLine {s : Subcommand} (environment : Environment) {settings : List Setting}
    (once : (settings.map (·.1)).Nodup) (known : ∀ setting ∈ settings, setting.1 ∈ s.parameters)
    (takes : ∀ p ∈ s.parameters, ∀ text,
    textOf? environment settings p = some text → p.Takes text) :
    Request.read environment (s.commandLine settings) =
      Request.ofGiven s
      (Given.ofTexts fun p => if p ∈ s.parameters then textOf? environment settings p else
      none) := by
  have named : Word.ofText s.name = .plain s.name ∧ Subcommand.ofName? s.name = some s := by
    cases s <;> decide +kernel
  simp only [Request.read, Subcommand.commandLine, Request.ofArguments, named, Request.ofSubcommand,
    givenTo_settings environment once known takes]
  rfl

end TextArchive.Command
