import TextArchive.Proofs.Store.Lookup

/-!
What an index says, apart from how it is cut into segments, and whether that is what the rows of its
table hold now. Databases that are the same once all their indexes are merged give the same answers.
-/

set_option autoImplicit false
set_option relaxedAutoImplicit false

namespace TextArchive.Store

namespace Indexing

/-- Whether an index says of some rows what it would say if it were made of them now. -/
def Covers (i : Indexing) (rows : List Row) : Prop :=
  i.entries = rows.map (.ofRow i.tokenizer)

section

variable (i : Indexing)

@[simp] theorem rank_withRank (rank : String) : (i.withRank rank).rank = some rank := rfl

@[simp] theorem entries_note (r : Row) : (i.note r).entries = i.entries ++ [.ofRow i.tokenizer r] :=
    by
  simp [entries, note]

@[simp] theorem entries_merge : i.merge.entries = i.entries := by
  simp [entries, merge]

@[simp] theorem entries_build (rows : List Row) :
    (i.build rows).entries = rows.map (.ofRow i.tokenizer) := by
  simp [entries, build]

@[simp] theorem merge_merge : i.merge.merge = i.merge := by
  simp [merge, entries]

@[simp] theorem merge_build (rows : List Row) : (i.build rows).merge = i.build rows := by
  simp [merge, build, entries]

/-- What an index says is all the same before and after its waiting part has become a segment. -/
@[simp] theorem merge_flush : i.flush.merge = i.merge := by
  unfold flush
  split
  · rfl
  dsimp only
  split <;> simp [merge, entries]

end

variable {i j : Indexing} {rows : List Row}

private theorem covers_empty (specification : String) (tokenizer : Index.Tokenizer) :
    (empty specification tokenizer).Covers [] :=
  rfl

private theorem Covers.note (covers : i.Covers rows) (r : Row) :
    (i.note r).Covers (rows ++ [r]) := by
  rw [Covers, entries_note, covers, List.map_append]
  rfl

theorem covers_build (i : Indexing) (rows : List Row) : (i.build rows).Covers rows :=
  i.entries_build rows

theorem Covers.of_merge (covers : i.Covers rows) (same : j.merge = i.merge) : j.Covers rows := by
  have tokenizer : j.merge.tokenizer = i.merge.tokenizer := by rw [same]
  have entries : j.entries = i.entries := by rw [← entries_merge, same, entries_merge]
  rw [Covers, entries, show j.tokenizer = i.tokenizer from tokenizer]
  exact covers

/-- Making an index anew from the rows that it covers changes at most its segments. -/
theorem Covers.merge_build (covers : i.Covers rows) : (i.build rows).merge = i.merge := by
  rw [merge, entries_build, ← covers]
  rfl

end Indexing

namespace Table

/-- Whether the index of a table, if it has one, says what the rows hold. -/
def InStep (t : Table) : Prop :=
  ∀ indexing, t.kind = .indexed indexing → indexing.Covers t.rows

private theorem reindex_reindex (f g : Indexing → Indexing) (t : Table) :
    (t.reindex f).reindex g = t.reindex (g ∘ f) := by
  obtain ⟨name, _ | _, rows⟩ := t <;> rfl

theorem indexed_reindex {t : Table} (change : Indexing → Indexing)
    (indexed : ∃ indexing, t.kind = .indexed indexing) :
    ∃ indexing, (t.reindex change).kind = .indexed indexing := by
  obtain ⟨indexing, kind⟩ := indexed
  exact ⟨change indexing, by rw [reindex_of_indexed change kind]⟩

theorem indexed_add {t : Table} (r : Record) (indexed : ∃ indexing, t.kind = .indexed indexing) :
    ∃ indexing, (t.add r).kind = .indexed indexing :=
  indexed_reindex (t := { t with rows := _ }) _ indexed

theorem inStep_empty (name specification : String) (tokenizer : Index.Tokenizer) :
    InStep ⟨name, .indexed (.empty specification tokenizer), []⟩ := by
  rintro _ ⟨⟩
  exact Indexing.covers_empty specification tokenizer

theorem InStep.reindex {t : Table} (inStep : t.InStep) {change : Indexing → Indexing}
    (covers : ∀ i, i.Covers t.rows → (change i).Covers t.rows) : (t.reindex change).InStep := by
  obtain ⟨name, indexing | _, rows⟩ := t
  · rintro _ ⟨⟩
    exact covers indexing (inStep indexing rfl)
  · exact inStep

theorem InStep.add {t : Table} (inStep : t.InStep) (r : Record) : (t.add r).InStep := by
  obtain ⟨name, indexing | _, rows⟩ := t
  · rintro _ ⟨⟩
    exact (inStep indexing rfl).note _
  · rintro _ ⟨⟩

theorem auxiliaries_of_indexed {t : Table} (indexed : ∃ indexing, t.kind = .indexed indexing) :
    t.auxiliaries = Auxiliary.all := by
  obtain ⟨indexing, kind⟩ := indexed
  simp only [Table.auxiliaries, kind]

section Engine

variable [Engine]

theorem accept_of_indexed {t : Table} (indexed : ∃ indexing, t.kind = .indexed indexing)
    (r : Record) :
    t.accept r = t.add r := by
  obtain ⟨indexing, kind⟩ := indexed
  rw [accept, kind]

@[simp] theorem left_self (medium : Medium) (t : Table) : t.left medium t = t :=
  if_pos rfl

@[simp] theorem name_left (medium : Medium) (t u : Table) : (t.left medium u).name = t.name := by
  unfold left
  split
  · rfl
  · exact Table.name_reindex ..

theorem kind_left {t : Table} (medium : Medium) (u : Table) {indexing : Indexing}
    (kind : t.kind = .indexed indexing) :
    ∃ segments pending, (t.left medium u).kind = .indexed { indexing with segments, pending } := by
  unfold left
  split
  · exact ⟨indexing.segments, indexing.pending, kind⟩
  · exact ⟨(Engine.remains medium t u).2, [], by simp only [reindex, kind]⟩

end Engine

end Table

namespace Database

/-- A database with every index in one segment. -/
def merged (db : Database) : Database :=
  db.reindex Indexing.merge

private theorem reindex_reindex (f g : Indexing → Indexing) (db : Database) :
    (db.reindex f).reindex g = db.reindex (g ∘ f) := by
  simp only [reindex, List.map_map]
  congr 2
  funext t
  exact t.reindex_reindex f g

theorem modify_reindex_reindex (db : Database) (collection : String)
    (f g : List Row → Indexing → Indexing) :
    (db.modify collection fun t => t.reindex (f t.rows)).modify collection
    (fun t => t.reindex (g t.rows)) =
      db.modify collection fun t => t.reindex fun i => g t.rows (f t.rows i) := by
  rw [modify_modify db collection fun t => t.name_reindex _]
  refine congrArg (db.modify collection) (funext fun t => ?_)
  rw [Function.comp_apply, Table.rows_reindex, Table.reindex_reindex]
  rfl

private theorem merged_reindex {change : Indexing → Indexing}
    (same : ∀ i, (change i).merge = i.merge) (db : Database) :
    (db.reindex change).merged = db.merged := by
  rw [merged, reindex_reindex, show Indexing.merge ∘ change = Indexing.merge from funext same]
  rfl

theorem merged_modify {db : Database} (collection : String) {change : Table → Indexing → Indexing}
    (same : ∀ t ∈ db.tables, ∀ i, t.kind = .indexed i → (change t i).merge = i.merge) :
    (db.modify collection fun t => t.reindex (change t)).merged = db.merged := by
  simp only [merged, reindex, modify, List.map_map]
  congr 1
  refine List.map_congr_left fun t member => ?_
  rw [Function.comp_apply]
  split
  · obtain ⟨name, indexing | _, rows⟩ := t
    · simp only [Table.reindex, same _ member indexing rfl]
    · rfl
  · rfl

@[simp] theorem merged_flush (db : Database) : (db.reindex Indexing.flush).merged = db.merged :=
  db.merged_reindex (·.merge_flush)

section Answers

variable (db : Database) (collection : String)

theorem rows_reindex (change : Indexing → Indexing) :
    (db.reindex change).rows collection = db.rows collection := by
  simp only [rows, find?_reindex]
  cases db.find? collection with
  | none => rfl
  | some found => cases found <;> simp [Named.change]

theorem rankConfig_merged : db.merged.rankConfig collection = db.rankConfig collection := by
  simp only [rankConfig, merged, find?_reindex]
  obtain _ | _ | ⟨⟨_, _ | _, _⟩, part⟩ := db.find? (Auxiliary.config.tableName collection)
  · rfl
  · rfl
  all_goals cases part <;> rfl

private theorem ranked_merge (indexing : Indexing) (weights : List Float) (e : Query.Expr)
    (rows : List Row) :
    Search.ranked indexing.merge weights e rows = Search.ranked indexing weights e rows := by
  simp only [Search.ranked, Search.statistics, Indexing.entries_merge]

private theorem searchHidden_merge (opened : Nat) (indexing : Indexing) (name : String)
    (rows : List Row) (text : List Char) (limit : Nat) :
    Search.searchHidden opened indexing.merge ⟨name, .indexed indexing.merge, rows⟩ text limit =
      Search.searchHidden opened indexing ⟨name, .indexed indexing, rows⟩ text limit := by
  have misread : ∀ weights e row, Search.misread indexing.merge weights
    (Search.statistics indexing.merge e) e row =
      Search.misread indexing weights (Search.statistics indexing e) e row := by
    intro weights e row
    simp only [Search.statistics, Indexing.entries_merge]
    rfl
  simp only [Search.searchHidden, Search.rankHidden, ranked_merge, misread]
  rfl

private theorem answer_merged (text : String) (topK : Nat) :
    Search.answer db.merged collection text topK = Search.answer db collection text topK := by
  simp only [Search.answer, Search.listCollection, Search.rankCollection, Search.searchTime, merged,
    find?_reindex]
  obtain _ | ⟨_, indexing | _, rows⟩ | _ := db.find? collection
  · rfl
  · simp only [Option.map_some, Named.change, Table.reindex, Search.best, ranked_merge]
    rfl
  · rfl
  · rfl

/-- How an index is cut into segments does not show in the answers of a search. -/
theorem searchAfter_merged (opened : Nat) (text : String) (topK : Nat) :
    searchAfter opened db.merged collection text topK =
    searchAfter opened db collection text topK := by
  have found : db.merged.find? collection = (db.find? collection).map
    (Named.change (Table.reindex Indexing.merge)) :=
    db.find?_reindex _ collection
  simp only [searchAfter, answer_merged, found]
  cases Search.hidesNumbers collection with
  | false => rfl
  | true =>
    obtain _ | ⟨_, _ | _, _⟩ | _ := db.find? collection
    · rfl
    · simp only [Option.map_some, Named.change, Table.reindex, searchHidden_merge]
    · rfl
    · rfl

end Answers

end Database

end TextArchive.Store
