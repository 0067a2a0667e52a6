import TextArchive.Proofs.Query.Standing
import TextArchive.Proofs.Search.Words
import TextArchive.Proofs.Session.Appending
import TextArchive.Proofs.Session.Invariant
import TextArchive.Proofs.Store.Names

/-!
What has been put into a collection is found: a search for a word finds just those live rows one of
whose texts has it, and with them every file that has been ingested and has it.
-/

set_option autoImplicit false
set_option relaxedAutoImplicit false

namespace TextArchive

open TextArchive.File (Disk Path)
open TextArchive.Index (Moderate Tokenizer)
open TextArchive.Ingest
open TextArchive.Query (IsWord StandsIn termOf)
open TextArchive.Store (Connection Database Engine Indexing Row Storage Table)

/-- Collections whose tokenizers are those of their specifications. -/
def Store.Database.Specified (db : Database) : Prop :=
  ∀ t ∈ db.tables, ∀ indexing, t.kind = .indexed indexing →
    Tokenizer.ofSpecification indexing.specification = .ok indexing.tokenizer

private theorem Store.Database.kept_specified : Kept Specified where
  withWriteAhead _ _ specified := specified
  createCollection db db' collection specification specified created := by
    rcases createCollection_cases created with ⟨rfl, -⟩ | ⟨-, -, tokenizer, chosen, rfl⟩
    · exact specified
    · intro t member indexing kind
      rcases List.mem_append.mp member with before | new
      · exact specified t before indexing kind
      · rw [List.mem_singleton.mp new] at kind
        cases kind
        exact chosen
  map db f specified same := by
    intro u member indexing kind
    obtain ⟨t, before, rfl⟩ := List.mem_map.mp member
    cases was : t.kind with
    | plain longest => exact nomatch ((same t before).plain longest was).symm.trans kind
    | indexed i =>
      obtain ⟨j, now, segments, pending, rfl⟩ := (same t before).indexed i was
      cases now.symm.trans kind
      exact specified t before i was
  setRank db db' collection rank specified set := by
    obtain rfl := eq_of_setRank set
    intro u member indexing kind
    obtain ⟨t, before, rfl⟩ := List.mem_map.mp member
    obtain ⟨name, was, rows⟩ := t
    split at kind
    · cases was with
      | plain longest => cases kind
      | indexed i =>
        cases kind
        exact specified _ before i rfl
    · exact specified _ before indexing kind

namespace Session

section Ingested

variable [Engine]

private theorem insertions_perform (s : Session) (operation : Operation) :
    ∃ more, (s.perform operation).insertions = s.insertions ++ more := by
  have none_more : ∃ more, s.insertions = s.insertions ++ more := ⟨[], (List.append_nil _).symm⟩
  cases operation with
  | connect path config => exact none_more
  | connectExisting path collection => exact none_more
  | run options root path config => exact ⟨_, rfl⟩
  | use n use =>
    simp only [Session.perform]
    cases s.connections[n]? with
    | none => exact none_more
    | some c =>
      cases use with
      | insertBatch records => exact ⟨_, rfl⟩
      | ingest options source => exact ⟨_, rfl⟩
      | _ => exact none_more

/-- A file of a tree that an ingestion with some options has taken into a collection in the course
of a session: an ingestion that succeeded, by a run or on a connection. -/
inductive Ingested (key : Nat) (collection : String) (options : Options) (tree : Disk)
    (path : Path) : Session → Prop
  | run {s : Session} {root db : Path} {config : Store.Config} {folder : Folder}
      {c : Connection} {report : Report}
      (found : Folder.ofPath s.storage.shown root = .ok folder)
      (made : (s.storage.connect db config).result = .ok c)
      (ran : (Ingestion.run options root db config s.storage).result = .ok report)
      (shown : (s.storage.connect db config).state.shown = tree) (here : c.key = key)
      (same : Store.Name.same c.collection collection = true)
      (taken : path ∈ firstFiles options.maxFiles (folder.items tree)) :
      Ingested key collection options tree path (s.perform (.run options root db config))
  | use {s : Session} {n : Nat} {c : Connection} {source : Disk → List SourceItem} {report : Report}
      (connected : s.connections[n]? = some c)
      (ingested : (Ingestion.ingestConnected options source s.storage c).result = .ok report)
      (shown : s.storage.shown = tree) (here : c.key = key)
      (same : Store.Name.same c.collection collection = true)
      (taken : path ∈ firstFiles options.maxFiles (source tree)) :
      Ingested key collection options tree path (s.perform (.use n (.ingest options source)))
  | perform {s : Session} (before : Ingested key collection options tree path s)
      (operation : Operation) :
      Ingested key collection options tree path (s.perform operation)
  | changeFiles {s : Session} (before : Ingested key collection options tree path s) (disk : Disk) :
      Ingested key collection options tree path { s with storage := { s.storage with disk } }

theorem Ingested.mem_held {key : Nat} {collection : String} {options : Options} {tree : Disk}
    {path : Path} {s : Session} (ingested : Ingested key collection options tree path s) :
    ((Ingestion.builder options).build tree path).record ∈ held s.insertions key collection := by
  induction ingested with
  | @run s root db config folder c report found made ran shown here same taken =>
    obtain ⟨positive, -, -⟩ := of_run_ok ran
    obtain ⟨result, -, handed⟩ := run_eq positive found made
    rw [result] at ran
    subst here shown
    show _ ∈ held (s.insertions ++ runInsertions options root db config s.storage) c.key collection
    rw [held_append, handed, held_of_ingested ran same]
    exact List.mem_append_right _ (List.mem_map_of_mem taken)
  | @use s n c source report connected ingested shown here same taken =>
    subst here shown
    simp only [Session.perform, connected, Option.elim_some]
    show _ ∈ held (s.insertions ++ ingestInsertions options source s.storage c) c.key collection
    rw [held_append, held_of_ingested ingested same]
    exact List.mem_append_right _ (List.mem_map_of_mem taken)
  | @perform s _ operation ih =>
    obtain ⟨more, grown⟩ := s.insertions_perform operation
    rw [grown, held_append]
    exact List.mem_append_left _ ih
  | changeFiles _ _ ih => exact ih

end Ingested

end Session

theorem content_of_read (options : Ingest.Options) {tree : Disk} {path : Path}
    {bytes : Text.Utf8.Bytes} (read : tree.read path = .ok bytes) :
    ((Ingestion.builder options).build tree path).record.content =
      String.ofList (Text.Utf8.decodeDropping (RecordBuilder.capped options.limitBytes bytes)) := by
  simp only [RecordBuilder.build, RecordBuilder.readText, read]
  rfl

private theorem mem_terms_of_read {options : Ingest.Options} {tree : Disk} {path : Path}
    {w : List Char} (word : IsWord w) {bytes : Text.Utf8.Bytes} (read : tree.read path = .ok bytes)
    (stands : StandsIn w (RecordBuilder.capped options.limitBytes bytes)) :
    termOf w ∈ Tokenizer.standard.terms
    ((Ingestion.builder options).build tree path).record.content.toList := by
  rw [content_of_read options read, String.toList_ofList]
  exact word.mem_terms_of_standsIn stands

namespace Session

theorem perform_connect_memory [Engine] (disk : Disk) :
    (start disk).perform (.connect Storage.memoryPath {}) =
      ⟨⟨disk, [⟨false, [⟨"documents", .indexed (.empty "unicode61" .standard), []⟩]⟩], [0]⟩,
        [⟨0, .memory, Storage.memoryPath, "documents", some .memory, .asked .memory {}⟩], []⟩ := by
  have valid : ({} : Store.Config).validate = .ok () := by rfl
  have whole : Storage.memoryPath.bytes.findIdx? (· = 0) = none := by decide +kernel
  have closed : Storage.unclosedSetting? ({} : Store.Pragmas) = none := by decide +kernel
  have requested : Store.JournalMode.requested? "WAL" = some .wal := by decide +kernel
  let s : Storage := ⟨disk, [.empty], []⟩
  have created : (s.database 0).createCollection Store.standardCollection Store.standardTokenizer =
      .ok ⟨false, [⟨"documents", .indexed (.empty "unicode61" .standard), []⟩]⟩ :=
    (Database.createCollection_standard rfl "documents").1 (by decide +kernel)
  have attached : (Storage.ofDisk disk).attach Storage.memoryPath true = .ok (⟨0, .memory⟩, s) := by
    simp only [Storage.attach, whole, if_true]
    rfl
  have accepted : s.journalRefusal? ⟨0, .memory⟩ {} = none :=
    Storage.journalRefusal?_eq_none (by decide +kernel) (by decide) rfl
  have made : (Storage.ofDisk disk).connect Storage.memoryPath {} =
      s.connectAttached Storage.memoryPath {} ⟨0, .memory⟩ :=
    Storage.connect_of_attach valid attached accepted closed
  have mode : s.modeFor ⟨0, .memory⟩ {} = .memory := by
    rw [Storage.modeFor, requested]
    rfl
  have switched : s.setWriteAhead 0 .memory = s := rfl
  rw [Session.perform, start, made, Storage.connectAttached]
  simp only [mode, switched, created]
  rfl

section Use

variable [Engine] {s : Session} {n : Nat} {c : Connection} (connected : s.connections[n]? = some c)
include connected

private theorem insertions_ingest (options : Options) (source : Disk → List SourceItem) :
    (s.perform (.use n (.ingest options source))).insertions =
      s.insertions ++ ingestInsertions options source s.storage c := by
  simp only [Session.perform, connected, Option.elim_some]
  rfl

private theorem storage_insertBatch (records : List Record) :
    (s.perform (.use n (.insertBatch records))).storage =
    c.keep s.storage (FullTextCollection.insertBatch (c.stored s.storage) records).2 := by
  simp only [Session.perform, connected, Option.elim_some]
  rfl

theorem insertions_insertBatch (there : (s.storage.database c.key).IsCollection c.collection)
    {records : List Record} (free : (StoreCall.insertBatch records).IsFree) :
    (s.perform (.use n (.insertBatch records))).insertions =
      s.insertions ++ [⟨c.key, c.collection, isJournaled s.storage c, records, .ok ()⟩] := by
  simp only [Session.perform, connected, Option.elim_some]
  exact congrArg (fun result => s.insertions ++ [⟨c.key, c.collection, isJournaled s.storage c,
    records, result⟩])
    (insertBatch_of_free (s := c.stored s.storage) free there).1

end Use

/-- A search for a word succeeds in every collection with the standard tokenizer whose rank is unset
or the standard one, and finds the live ones of the rows that have it as a term in one of their
texts. The rows are those of the batches that the collection has taken, and with them every file is
found that has been ingested into it and has the word. No batch may have been given up without a
journal, the collection must not have a name that means something else in the statement of a search,
and the bounds are those of the database. -/
theorem word_found [Engine] {session : Session} (reachable : session.Reachable) {key : Nat}
    (whole : AreWhole session.insertions key) {collection : String} {t : Table}
    {indexing : Indexing}
    (found : (session.storage.database key).find? collection = some (.table t))
    (kind : t.kind = .indexed indexing) (standard : indexing.specification = "unicode61")
    (ranked : indexing.rank = none ∨ indexing.rank = some Weights.standard.expression)
    (plain : Store.Name.isAmong Search.otherMeanings collection = false)
    (few : t.rows.length < 2 ^ 63) (short : ∀ r ∈ t.rows, ∀ text ∈ r.texts, text.length < 2 ^ 31)
    {w : String} (word : IsWord w.toList) {topK : Nat} (positive : 1 ≤ topK)
    (all : t.rows.length ≤ topK) (opened : Nat) :
    let term := termOf w.toList
    ∃ hits, (searchAfter opened (session.storage.database key) collection w topK).1 = .ok hits ∧
      (hits.map Search.fields).Perm
        ((t.rows.filter fun r => r.isLive && Search.holds term r).map Search.rowFields) ∧
      t.rows = Row.numberedFrom 1 (held session.insertions key collection) ∧
      ∀ options tree path, Ingested key collection options tree path session →
        let record := ((Ingestion.builder options).build tree path).record
        (∀ bytes, tree.read path = .ok bytes →
          StandsIn w.toList (RecordBuilder.capped options.limitBytes bytes) →
          term ∈ Tokenizer.standard.terms record.content.toList) ∧
        ((∃ text ∈ [record.title, record.sourcePath, record.content, record.tag],
            term ∈ Tokenizer.standard.terms text.toList) →
          ∃ h ∈ hits, h.title = record.title ∧ h.sourcePath = record.sourcePath ∧
            h.tag = record.tag) := by
  intro term
  have tokenizer : indexing.tokenizer = .standard := by
    have empty : Database.empty.Specified := fun _ member => absurd member List.not_mem_nil
    have specified := reachable.of_kept Store.Database.kept_specified empty key t
      (Database.mem_of_find? found).1 indexing kind
    rw [standard, Database.ofSpecification_standard] at specified
    exact (Except.ok.inj specified).symm
  have moderate : Moderate ((indexing.rank.map Index.RankExpression.weights).getD []) := by
    rcases ranked with unset | default
    · rw [unset]
      exact Index.moderate_nil
    · rw [default]
      exact Index.moderate_standard
  have holds := reachable.sound.keeps.holds key whole
  have rows := holds.rows collection t found
  obtain ⟨member, -⟩ := Database.mem_of_find? found
  obtain ⟨hits, ok, exactly⟩ := search_word found kind tokenizer moderate
    (holds.arises.inStep t member)
    (holds.arises.ordered t member) plain few short word positive all opened
  refine ⟨hits, ok, exactly, rows, fun options tree path ingested => ?_⟩
  intro record
  refine ⟨fun bytes read stands => mem_terms_of_read word read stands, fun has => ?_⟩
  obtain ⟨n, inside, here⟩ := List.mem_iff_getElem.mp ingested.mem_held
  have row : Row.ofRecord (1 + n) record ∈ t.rows := by
    rw [rows, Row.numberedFrom]
    exact List.mem_mapIdx.mpr ⟨n, inside, by rw [here]⟩
  have matched : Search.holds term (Row.ofRecord (1 + n) record) = true := by
    obtain ⟨text, member, inside⟩ := has
    refine List.any_eq_true.mpr ⟨text.toList, ?_, by simpa using inside⟩
    simpa [Row.texts, Row.ofRecord] using List.mem_map_of_mem (f := String.toList) member
  have shown : Search.rowFields (Row.ofRecord (1 + n) record) ∈ hits.map Search.fields :=
    exactly.mem_iff.mpr (List.mem_map_of_mem (List.mem_filter.mpr ⟨row, by rw [matched]; rfl⟩))
  obtain ⟨h, member, same⟩ := List.mem_map.mp shown
  simp only [Search.fields, Search.rowFields, Prod.mk.injEq] at same
  exact ⟨h, member, same.2.1, same.2.2.1, same.2.2.2⟩

/-- The specification and the rank of the index of a table, if it has one. -/
def indexFrame? (t : Table) : Option (String × Option String) :=
  match t.kind with
  | .indexed indexing => some (indexing.specification, indexing.rank)
  | .plain _ => none

/-- A word in capitals finds the file that has been ingested, and not the row of a record that is
deleted. -/
theorem word_found_in_ingested_file :
    let disk : Disk := ⟨[([[97]], .file (.bytes [72, 105, 33]))], []⟩
    let options : Options := { batchSize := 1, tag := "t" }
    let deleted : Record := { title := "b", content := "hi", deletedAt := some ⟨0, 0⟩ }
    let session := (((start disk).perform (.connect Storage.memoryPath {})).perform
      (.use 0 (.ingest options fun _ => [.file (.ofString "/a")]))).perform (.use 0
        (.insertBatch [deleted]))
    session.Reachable ∧ AreWhole session.insertions 0 ∧
    (∃ t indexing,
      (session.storage.database 0).find? "documents" = some (.table t) ∧
      t.kind = .indexed indexing ∧
      indexing.specification = "unicode61" ∧ indexing.rank = some Weights.standard.expression ∧
      t.rows = [⟨1, "a", "/a", "Hi!", "t", none⟩, ⟨2, "b", "", "hi", "",
        some "1970-01-01 00:00:00+00:00"⟩]) ∧
    IsWord "HI".toList ∧ Ingested 0 "documents" options disk (.ofString "/a") session ∧
    ∃ hits, (searchAfter 0 (session.storage.database 0) "documents" "HI" 2).1 = .ok hits ∧
      hits.map Search.fields = [(1, "a", "/a", "t")] := by
  intro disk options deleted session
  let source : Disk → List SourceItem := fun _ => [.file (.ofString "/a")]
  let c : Connection :=
    ⟨0, .memory, Storage.memoryPath, "documents", some .memory, .asked .memory {}⟩
  let before : Session :=
    ⟨⟨disk, [⟨false, [⟨"documents", .indexed (.empty "unicode61" .standard), []⟩]⟩], [0]⟩, [c], []⟩
  let next := before.perform (.use 0 (.ingest options source))
  have steps : session = next.perform (.use 0 (.insertBatch [deleted])) := by
    simp only [session, perform_connect_memory]
    rfl
  have opened : before.Reachable := by
    rw [show before = (start disk).perform (.connect Storage.memoryPath {}) from (perform_connect_memory disk).symm]
    exact (Reachable.start disk rfl).perform _
  have reachable : session.Reachable := by
    rw [steps]
    exact (opened.perform _).perform _
  have there : (before.storage.database 0).IsCollection "documents" := ⟨_, _, rfl, rfl⟩
  let record := ((Ingestion.builder options).build disk (.ofString "/a")).record
  have built : record = ⟨"a", "/a", "Hi!", "t", none⟩ := by
    have kept : RecordBuilder.sourcePathOf disk (.ofString "/a") = .ofString "/a" := by cbv
    have read : disk.read (.ofString "/a") = .ok [72, 105, 33] := by cbv
    simp only [record, RecordBuilder.build, RecordBuilder.readText, kept, read]
    decide +kernel
  let loaded := (insertEach (c.stored before.storage) [[⟨"a", "/a", "Hi!", "t", none⟩]]).2
  have loads : insertEach (c.stored before.storage) [[record]] = (.ok (), loaded) := by
    rw [built]
    decide +kernel
  have shown : before.storage.shown = disk := rfl
  let tended := c.keep before.storage (Maintenance.run options.weights loaded).2.2
  have done := @ingestConnected_of_taken _ before.storage c options (by decide) (by decide) source
    loaded (shown ▸ loads)
  obtain ⟨⟨report, ingested⟩, state⟩ := done
  replace state : next.storage = tended := state
  have file : Ingested 0 "documents" options disk (.ofString "/a") session := by
    rw [steps]
    exact (Ingested.use rfl ingested rfl rfl (Store.Name.same_refl _) List.mem_cons_self).perform _
  have collection : (next.storage.database 0).IsCollection "documents" :=
    ((opened.sound.keeps.ingest (c := c) (by decide) options source).2.databases 0).collections _
      there
  have deleted_free : (StoreCall.insertBatch [deleted]).IsFree :=
    StoreCall.isFree_of_size (by decide +kernel)
  have open_ : next.connections[0]? = some c := rfl
  have taken : session.insertions = before.insertions ++ ingestInsertions options source
    before.storage c ++
      [⟨0, "documents", true, [deleted], .ok ()⟩] := by
    have journaled : isJournaled next.storage c = true := by
      rw [state]
      decide +kernel
    rw [steps, insertions_insertBatch open_ collection deleted_free,
      insertions_ingest rfl, journaled]
  have whole : AreWhole session.insertions 0 := by
    rw [taken, attempts_of_ingested ingested]
    refine Storage.areWhole_append.mpr ⟨Storage.areWhole_append.mpr ⟨by decide,
      fun i member _ => ?_⟩, by decide⟩
    obtain ⟨_, inside, rfl⟩ := List.mem_map.mp member
    obtain ⟨batch, -, rfl⟩ := List.mem_map.mp inside
    rfl
  have handed : held session.insertions 0 "documents" = [record, deleted] := by
    rw [taken, held_append, held_append,
      held_of_ingested ingested (Store.Name.same_refl _), held_taken _ rfl,
      if_pos ⟨rfl, Store.Name.same_refl _⟩]
    rfl
  obtain ⟨t, indexing, found, kind⟩ :=
    reachable.sound.keeps.taken ⟨0, "documents", true, [deleted], .ok ()⟩
    (by rw [taken]; exact List.mem_append_right _ List.mem_cons_self) rfl
  have framed : indexing.specification = "unicode61" ∧
      indexing.rank = some Weights.standard.expression := by
    have frames : (session.storage.database 0).tables.map indexFrame? =
        [some ("unicode61", some Weights.standard.expression)] := by
      rw [steps, storage_insertBatch open_, state]
      decide +kernel
    have own : indexFrame? t = some ("unicode61", some Weights.standard.expression) :=
      List.mem_singleton.mp (frames ▸ List.mem_map_of_mem (Database.mem_of_find? found).1)
    simpa [indexFrame?, kind] using own
  have rows : t.rows = [⟨1, "a", "/a", "Hi!", "t", none⟩,
      ⟨2, "b", "", "hi", "", some "1970-01-01 00:00:00+00:00"⟩] := by
    rw [(reachable.sound.keeps.holds 0 whole).rows _ t found, handed, built]
    decide +kernel
  have word : IsWord "HI".toList := by decide +kernel
  have plain : Store.Name.isAmong Search.otherMeanings "documents" = false := by decide +kernel
  have short : ∀ r ∈ t.rows, ∀ text ∈ r.texts, text.length < 2 ^ 31 := by
    rw [rows]
    decide
  have both : t.rows.length = 2 := by rw [rows]; rfl
  obtain ⟨hits, ok, exactly, -⟩ :=
    word_found reachable whole found kind framed.1 (.inr framed.2) plain
    (by rw [both]; decide) short word (by decide) (show t.rows.length ≤ 2 by rw [both]) 0
  refine ⟨reachable, whole, ?_, word, file, ?_⟩
  · exact ⟨t, indexing, found, kind, framed.1, framed.2, rows⟩
  refine ⟨hits, ok, ?_⟩
  have matching : (t.rows.filter fun r => r.isLive && Search.holds (termOf "HI".toList) r).map
    Search.rowFields =
      [(1, "a", "/a", "t")] := by
    rw [rows]
    decide +kernel
  rw [matching] at exactly
  exact List.perm_singleton.mp exactly

/-- A search for no hits is refused, also in a collection that has no rows. -/
theorem no_hits_refused :
    let session := (start ⟨[], []⟩).perform (.connect Storage.memoryPath {})
    session.Reachable ∧ IsWord "word".toList ∧
      (∃ indexing, (session.storage.database 0).find? "documents" = some (.table ⟨"documents",
        .indexed indexing, []⟩) ∧
        indexing.specification = "unicode61" ∧ indexing.rank = none) ∧
      ∀ opened, (searchAfter opened (session.storage.database 0) "documents" "word" 0).1 = .error
        .zeroHits := by
  intro session
  have reachable : session.Reachable := (Reachable.start ⟨[], []⟩ rfl).perform _
  have word : IsWord "word".toList := by decide +kernel
  have found : (session.storage.database 0).find? "documents" =
      some (.table ⟨"documents", .indexed (.empty "unicode61" .standard), []⟩) := by
    simp only [session, perform_connect_memory]
    rfl
  refine ⟨reachable, word, ⟨_, found, rfl, rfl⟩, fun opened => ?_⟩
  have shows : Search.hidesNumbers "documents" = false := by decide +kernel
  rw [searchAfter_eq shows]
  rfl

end Session

end TextArchive
