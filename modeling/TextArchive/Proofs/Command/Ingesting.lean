import TextArchive.Command.Answer
import TextArchive.Proofs.Command.Reading
import TextArchive.Proofs.Session.Running

/-!
Ingesting from the command line. Whatever mixture of arguments and variables names the values, the
program does what a run with these values does, and says what came of it.
-/

set_option autoImplicit false
set_option relaxedAutoImplicit false

namespace TextArchive.Command

open TextArchive.File (Path)
open TextArchive.Ingest
open TextArchive.Store (Config Engine Storage)

/-- The ingestion that texts of parameters stand for. What has no text has its standard value, and
the weights of the options are set by the rank weights. -/
structure IngestTask.Reads (text? : Parameter → Option String) (task : IngestTask) : Prop where
  db : ∃ text, text? .db = some text ∧ text ≠ "" ∧ task.db = .ofString text
  root : ∃ text, text? .root = some text ∧ text ≠ "" ∧ task.root = .ofString text
  batchSize : ∃ given, Option.Rel SpellsCount (text? .batchSize) given ∧
    task.options.batchSize = given.getD Ingest.standardBatchSize
  maxFiles : Option.Rel SpellsCount (text? .maxFiles) task.options.maxFiles
  limitBytes : Option.Rel SpellsCount (text? .limitBytes) task.options.limitBytes
  tag : (text? .tag).getD Ingest.standardTag = task.options.tag
  weights : task.options.weights = .standard
  rankWeights : Option.Rel SpellsDoubles (text? .rankWeights) task.rankWeights
  collection : (text? .collection).getD Store.standardCollection = task.config.collection
  tokenizer : (text? .tokenizer).getD Store.standardTokenizer = task.config.tokenizer
  pragmas : task.config.pragmas = {}

section Values

variable {α : Type} {read? : String → Option α} {spells : String → α → Prop} {text : Option String}
    {value : Option α}
  (iff : ∀ text a, read? text = some a ↔ spells text a) (stands : Option.Rel spells text value)
include iff stands

private theorem bind_of_stands : text.bind read? = value := by
  cases stands with
  | none => rfl
  | some spelled => exact (iff _ _).mpr spelled

private theorem isSome_of_stands {own : String} (there : text = some own) : (read? own).isSome := by
  cases stands with
  | none => cases there
  | some spelled =>
    cases there
    exact Option.isSome_of_eq_some ((iff _ _).mpr spelled)

end Values

namespace IngestTask.Reads

variable {text? : Parameter → Option String} {task : IngestTask} (reads : task.Reads text?)
include reads

private theorem ofGiven : Request.ofGiven .ingest
    (Given.ofTexts text?) = .ok ⟨.ingest task, false⟩ := by
  obtain ⟨dbText, dbThere, -, db⟩ := reads.db
  obtain ⟨rootText, rootThere, -, root⟩ := reads.root
  obtain ⟨given, spelled, batchSize⟩ := reads.batchSize
  have given := bind_of_stands count?_eq_some_iff spelled
  have maxFiles := bind_of_stands count?_eq_some_iff reads.maxFiles
  have limitBytes := bind_of_stands count?_eq_some_iff reads.limitBytes
  have rankWeights := bind_of_stands decimals?_eq_some_iff reads.rankWeights
  obtain ⟨-, -, -, -, -, tag, weights, -, collection, tokenizer, pragmas⟩ := reads
  obtain ⟨db', root', ⟨batchSize', maxFiles', limitBytes', tag', weights'⟩, rankWeights',
    ⟨collection', tokenizer', pragmas'⟩⟩ := task
  subst db root given batchSize maxFiles limitBytes rankWeights tag weights
    collection tokenizer pragmas
  simp only [Request.ofGiven, Given.ofTexts, dbThere, rootThere, Option.map_some]
  rfl

private theorem takes (alone : text? .verbose = none) :
    ∀ p ∈ Subcommand.ingest.parameters, ∀ text, text? p = some text → p.Takes text := by
  intro p known text there
  cases p with
  | db =>
    obtain ⟨text', there', filled, -⟩ := reads.db
    cases there.symm.trans there'
    exact filled
  | root =>
    obtain ⟨text', there', filled, -⟩ := reads.root
    cases there.symm.trans there'
    exact filled
  | batchSize =>
    obtain ⟨given, spelled, -⟩ := reads.batchSize
    exact isSome_of_stands count?_eq_some_iff spelled there
  | maxFiles => exact isSome_of_stands count?_eq_some_iff reads.maxFiles there
  | limitBytes => exact isSome_of_stands count?_eq_some_iff reads.limitBytes there
  | rankWeights => exact isSome_of_stands decimals?_eq_some_iff reads.rankWeights there
  | tag | collection | tokenizer => trivial
  | verbose =>
    rw [alone] at there
    cases there
  | query | topK | json => simp [Subcommand.parameters] at known

end IngestTask.Reads

private theorem read_of_reads {environment : Environment} {settings : List Setting}
    {task : IngestTask} (once : (settings.map (·.1)).Nodup)
    (known : ∀ setting ∈ settings, setting.1 ∈ Subcommand.ingest.parameters ∧ setting.1 ≠ .verbose)
    (reads : task.Reads (textOf? environment settings)) :
    Request.read environment (Subcommand.ingest.commandLine settings) =
    .ok ⟨.ingest task, false⟩ := by
  have unset : ∀ p, p ∉ Subcommand.ingest.parameters ∨ p = .verbose →
    textOf? environment settings p = none := by
    intro p other
    have unlisted : settings.lookup p = none := by
      refine List.lookup_eq_none_iff.mpr fun setting member => ?_
      rw [bne_iff_ne]
      rintro rfl
      obtain ⟨listed, quiet⟩ := known setting member
      exact other.elim (absurd listed) quiet
    have alone : p.standIn? environment = none := by
      cases p with
      | rankWeights | query | topK | json | verbose => rfl
      | _ => exact absurd other (by decide)
    rw [textOf?, unlisted, alone]
    rfl
  have texts : (fun p => if p ∈ Subcommand.ingest.parameters then textOf? environment settings p
    else none) =
      textOf? environment settings := by
    funext p
    split
    · rfl
    · rename_i unknown
      exact (unset p (.inl unknown)).symm
  rw [read_commandLine environment once (fun setting member => (known setting member).1)
    (reads.takes (unset .verbose (.inr rfl))), texts]
  exact reads.ofGiven

/-- The weights of an ingestion: the standard ones, or the four that are given if they are
finite. -/
def IngestTask.Weighs (task : IngestTask) (weights : Weights) : Prop :=
  task.rankWeights = none ∧ weights = .standard ∨ task.rankWeights = some weights.toList ∧
    weights.allFinite = true

private theorem weightsOf_of_weighs {task : IngestTask} {weights : Weights}
    (weighs : task.Weighs weights) :
    weightsOf task = .ok weights := by
  rcases weighs with ⟨none, rfl⟩ | ⟨given, finite⟩
  · simp only [weightsOf, none]
  · simp only [weightsOf, given, Weights.toList, checkWeights, finite, if_true]
    rfl

private theorem weightsOf_refused {task : IngestTask} {given : List Float}
    (there : task.rankWeights = some given)
    (bad : given.length ≠ 4 ∨ given.all Number.Binary64.isFinite = false) :
    ∃ failure, weightsOf task = .error failure ∧ failure.code = 1 := by
  unfold weightsOf
  rw [there]
  split
  · rename_i none
    cases none
  · rename_i title sourcePath content tag four
    cases four
    have unbounded : (Weights.mk title sourcePath content tag).allFinite = false :=
      bad.resolve_left (fun other => other rfl)
    refine ⟨.refused (.invalidArgument (.unboundedWeights ⟨title, sourcePath,
      content, tag⟩)), ?_, rfl⟩
    rw [checkWeights, if_neg (by simp [unbounded])]
    rfl
  · exact ⟨_, rfl, rfl⟩

section Room

private theorem connect_ne_overflow (s : Storage) (path : Path) (config : Config) :
    (s.connect path config).result ≠ .error .capacityOverflow := by
  unfold Storage.connect
  rcases config.validate with e | _
  · rintro ⟨⟩
  rcases s.attach path true with e | ⟨attached, s'⟩
  · rintro ⟨⟩
  dsimp only
  rcases s'.journalRefusal? attached config.pragmas with _ | e
  · rcases Storage.unclosedSetting? config.pragmas with _ | e
    · simp only [Storage.connectAttached]
      split
      · rintro ⟨⟩
      · split <;> rintro ⟨⟩
    · rintro ⟨⟩
  · rintro ⟨⟩

private theorem ingest_ne_overflow {σ : Type} [FullTextCollection σ] {options : Options}
    (fits : options.batchSize ≤ BatchWriter.greatestBatch) (build : Path → BuiltRecord)
    (source : List SourceItem)
    (c : σ) : (Ingestion.ingest options build source c).result ≠ .error .capacityOverflow := by
  rcases Nat.eq_zero_or_pos options.batchSize with zero | positive
  · simp [Ingestion.ingest, BatchWriter.start, zero]
  · have handed := Ingestion.ingest_eq_handOver positive fits build source c
    simp only [Progress.handOver] at handed
    generalize insertEach c ((⟨⟨options.batchSize, [], 0, 0⟩, 0, 0⟩ : Progress).batches
      ((firstFiles options.maxFiles source).map build)) = sent at handed
    rcases sent with ⟨e | _, loaded⟩
    · rw [(Prod.mk.inj handed).1]
      rintro ⟨⟩
    · rw [(Prod.mk.inj handed).1]
      rintro ⟨⟩

private theorem run_ne_overflow [Engine] {options : Options}
    (fits : options.batchSize ≤ BatchWriter.greatestBatch) (root path : Path) (config : Config)
    (s : Storage) :
    (Ingestion.run options root path config s).result ≠ .error .capacityOverflow := by
  unfold Ingestion.run
  split
  · exact nofun
  split
  · rename_i e refused
    rintro ⟨⟩
    unfold Folder.ofPath at refused
    split at refused
    · cases absolute : root.absolute? s.shown.workingDirectory <;> simp [absolute] at refused
    · cases refused
  · have steady := connect_ne_overflow s path config
    rcases connected : s.connect path config with ⟨events, t, e | connection⟩
    · rw [connected] at steady
      exact fun same => steady (congrArg Except.error (Except.error.inj same))
    · exact ingest_ne_overflow fits _ _ (connection.stored t)

end Room

private theorem output_of_error {elapsed : String} {db : Path} {e : IngestError}
    (ends : e ≠ .capacityOverflow) :
    ((Result.failed (.ingestion db e)).output elapsed).code = 1 := by
  cases e with
  | capacityOverflow => exact absurd rfl ends
  | _ => rfl

/-- Settings on the command line and variables of the environment that stand for an ingestion make
the program run it with the weights that are given: it leaves what the run leaves, and it ends well
just if the run does, with a summary of its report. Weights that are not four finite numbers are
refused before anything is touched. -/
theorem ingest_command_runs [Engine] {environment : Environment} {settings : List Setting}
    {task : IngestTask} (once : (settings.map (·.1)).Nodup)
    (known : ∀ setting ∈ settings, setting.1 ∈ Subcommand.ingest.parameters ∧ setting.1 ≠ .verbose)
    (reads : task.Reads (textOf? environment settings)) :
    ∃ request, Request.read environment (Subcommand.ingest.commandLine settings) = .ok request ∧
      ∀ (s : Storage) (elapsed : String),
        let answer := request.answer s
        let output := answer.result.output elapsed
        (∀ weights, task.Weighs weights →
          let run := Ingestion.run { task.options with weights } task.root task.db task.config s
          answer.storage = run.state ∧
          (output.code = 0 ↔ ∃ report, run.result = .ok report) ∧
          (∀ report, run.result = .ok report → output.stdout =
            (if 0 < report.readFailures then
              toString report.readFailures ++ " file(s) could not be read and were stored with an error placeholder\n"
            else "") ++ "done: processed " ++ toString report.total ++ " files, inserted " ++
              toString report.inserted ++ " records in " ++ elapsed ++ "s\n") ∧
          ∀ e, run.result = .error e → output.stdout = "" ∧
            (task.options.batchSize ≤ BatchWriter.greatestBatch → output.code = 1)) ∧
        ∀ given, task.rankWeights = some given →
          given.length ≠ 4 ∨ given.all Number.Binary64.isFinite = false →
          output.code = 1 ∧ output.stdout = "" ∧ answer.storage = s := by
  refine ⟨⟨.ingest task, false⟩, read_of_reads once known reads,
    fun s elapsed => ⟨fun weights weighs => ?_, fun given there bad => ?_⟩⟩
  · have weighed := weightsOf_of_weighs weighs
    simp only [Request.answer, answerIngest, weighed]
    cases ran : (Ingestion.run { task.options with weights } task.root task.db task.config
      s).result with
    | error e =>
      have failed : ((Result.failed (.ingestion task.db e)).output elapsed).code ≠ 0 := by
        cases e <;> simp [Result.output, Failure.code]
      refine ⟨rfl, ⟨fun well => absurd well failed, by simp⟩, by simp, ?_⟩
      rintro _ ⟨⟩
      refine ⟨rfl, fun fits => output_of_error ?_⟩
      rintro rfl
      exact @run_ne_overflow _ { task.options with weights } fits _ _ _ _ ran
    | ok report =>
      refine ⟨rfl, ⟨fun _ => ⟨report, rfl⟩, fun _ => rfl⟩, ?_, by simp⟩
      rintro _ ⟨⟩
      show Result.summary report elapsed = _
      rw [Result.summary]
      by_cases none : report.readFailures = 0
      · rw [if_pos none, if_neg (by omega)]
      · rw [if_neg none, if_pos (by omega)]
  · obtain ⟨failure, refused, code⟩ := weightsOf_refused there bad
    have left : answerIngest s task = ⟨[], .failed failure, s⟩ := by
      simp only [answerIngest, refused]
    rw [show (Request.mk (.ingest task) false).answer s = _ from left]
    exact ⟨code, rfl, rfl⟩

/-- The database by its variable, the folder, the size of batches and weights by arguments, and all
else as usual. -/
theorem ingest_command_runs_of_folder :
    let environment : Environment := [("FTS_INGEST_DB", "/d"), ("FTS_INGEST_ROOT", "/q")]
    let settings : List Setting := [(.root, "/r"), (.batchSize, "7"), (.rankWeights, "4,3,2,1")]
    let weights : Weights := ⟨4, 3, 2, 1⟩
    let task : IngestTask :=
      { db := .ofString "/d", root := .ofString "/r", options := { batchSize := 7 },
        rankWeights := some weights.toList
        config := {} }
    (settings.map (·.1)).Nodup ∧
    (∀ setting ∈ settings, setting.1 ∈ Subcommand.ingest.parameters ∧ setting.1 ≠ .verbose) ∧
    task.Reads (textOf? environment settings) ∧ task.Weighs weights ∧
    ∃ request, Request.read environment ["ingest", "--root=/r", "--batch-size=7",
      "--rank-weights=4,3,2,1"] = .ok request ∧
      (request.answer (Storage.ofDisk ⟨[([[114]], .directory)], []⟩)).storage =
        (Ingestion.run { batchSize := 7, weights } (.ofString "/r") (.ofString "/d") {}
          (Storage.ofDisk ⟨[([[114]], .directory)], []⟩)).state := by
  intro environment settings weights task
  have once : (settings.map (·.1)).Nodup := by decide
  have known : ∀ setting ∈ settings, setting.1 ∈ Subcommand.ingest.parameters ∧
    setting.1 ≠ .verbose := by decide
  have given : textOf? environment settings .batchSize = some "7" := by decide +kernel
  have seven : SpellsCount "7" 7 := ⟨by decide, ['7'], .inl rfl, ⟨by decide, by simp, rfl⟩⟩
  have weighted : textOf? environment settings .rankWeights = some "4,3,2,1" := by decide +kernel
  have four : SpellsDoubles "4,3,2,1" [4, 3, 2, 1] :=
    (decimals?_eq_some_iff _ _).mp (by decide +kernel)
  have unset : textOf? environment settings .maxFiles = none ∧
    textOf? environment settings .limitBytes = none := by
    decide +kernel
  have reads : task.Reads (textOf? environment settings) :=
    { db := ⟨"/d", by decide +kernel, by decide, rfl⟩
      root := ⟨"/r", by decide +kernel, by decide, rfl⟩
      batchSize := ⟨some 7, given ▸ .some seven, rfl⟩
      maxFiles := unset.1 ▸ .none
      limitBytes := unset.2 ▸ .none
      tag := by decide +kernel
      weights := rfl
      rankWeights := weighted ▸ .some four
      collection := by decide +kernel
      tokenizer := by decide +kernel
      pragmas := rfl }
  have weighs : task.Weighs weights := .inr ⟨rfl, by decide +kernel⟩
  obtain ⟨request, read, runs⟩ := ingest_command_runs once known reads
  have line : Subcommand.ingest.commandLine settings =
      ["ingest", "--root=/r", "--batch-size=7", "--rank-weights=4,3,2,1"] := by decide +kernel
  rw [line] at read
  exact ⟨once, known, reads, weighs, request, read,
    ((runs (Storage.ofDisk ⟨[([[114]], .directory)], []⟩) "0.0").1
    weights weighs).1⟩

def exitCode [Engine] (environment : Environment) (arguments : List String) (s : Storage) : Nat :=
  match Request.read environment arguments with
  | .error stop => (stop.output environment).code
  | .ok request => ((request.answer s).result.output "0.0").code

/-- A command line without a folder is not understood, and a size of batches for which no room can
be made ends the program: the exit codes are others. -/
theorem ingest_command_ends_otherwise :
    let s := Storage.ofDisk ⟨[([[114]], .directory)], []⟩
    exitCode [] ["ingest", "--db=:memory:"] s = 2 ∧
      exitCode [] ["ingest", "--db=:memory:", "--root=/r",
        "--batch-size=18446744073709551615"] s = 101 := by
  intro s
  refine ⟨by decide +kernel, ?_⟩
  let settings : List Setting := [(.db, ":memory:"), (.root, "/r"),
    (.batchSize, "18446744073709551615")]
  let task : IngestTask :=
    { db := .ofString ":memory:", root := .ofString "/r",
      options := { batchSize := 18446744073709551615 }
      rankWeights := none, config := {} }
  have given : textOf? [] settings .batchSize = some "18446744073709551615" := by decide +kernel
  have spelled : SpellsCount "18446744073709551615" 18446744073709551615 :=
    (count?_eq_some_iff _ _).mp (by decide +kernel)
  have reads : task.Reads (textOf? [] settings) :=
    { db := ⟨":memory:", by decide +kernel, by decide, rfl⟩
      root := ⟨"/r", by decide +kernel, by decide, rfl⟩
      batchSize := ⟨some 18446744073709551615, given ▸ .some spelled, rfl⟩
      maxFiles := .none
      limitBytes := .none
      tag := by decide +kernel
      weights := rfl
      rankWeights := .none
      collection := by decide +kernel
      tokenizer := by decide +kernel
      pragmas := rfl }
  have read := read_of_reads (by decide) (by decide) reads
  have line : Subcommand.ingest.commandLine settings =
      ["ingest", "--db=:memory:", "--root=/r",
        "--batch-size=18446744073709551615"] := by decide +kernel
  rw [line] at read
  have directory : s.shown.isDirectory (.ofString "/r") = true := by cbv
  have absolute : (Path.ofString "/r").absolute? s.shown.workingDirectory = some (.ofString "/r") :=
    by decide +kernel
  have found : Folder.ofPath s.shown (.ofString "/r") = .ok ⟨.ofString "/r"⟩ := by
    rw [Folder.ofPath, directory, absolute]
    rfl
  have opened : (s.connect (.ofString ":memory:") {}).result.isOk = true := by decide +kernel
  cases made : (s.connect (.ofString ":memory:") {}).result with
  | error e =>
    rw [made] at opened
    cases opened
  | ok c =>
    have great : BatchWriter.greatestBatch < task.options.batchSize := by decide
    have ran := Session.run_overflow found made great
    have weighed : weightsOf task = .ok .standard := rfl
    have failed : (answerIngest s task).result =
      .failed (.ingestion task.db .capacityOverflow) := by
      simp only [answerIngest, weighed]
      split
      · rename_i same
        cases ran.symm.trans same
      · rename_i same
        cases ran.symm.trans same
        rfl
    simp only [exitCode, read, Request.answer, failed]
    rfl

end TextArchive.Command
