import TextArchive.Proofs.Store.Frame

/-!
The rank of a collection. It is that of its index, and nothing but setting one changes it.
-/

set_option autoImplicit false
set_option relaxedAutoImplicit false

namespace TextArchive.Store.Database

/-- A database where a name is that of a collection with the given rank, or without one. -/
structure Ranked (name : String) (rank : Option String) (db : Database) :
    Prop extends db.Sound where
  there : ∃ t indexing, db.find? name = some (.table t) ∧
    t.kind = .indexed indexing ∧ indexing.rank = rank

variable {name : String} {rank : Option String} {db db' : Database}

theorem Sound.ranked (sound : db.Sound) (there : db.IsCollection name) :
    ∃ rank, Ranked name rank db := by
  obtain ⟨t, indexing, found, kind⟩ := there
  exact ⟨indexing.rank, sound, t, indexing, found, kind, rfl⟩

namespace Ranked

variable (ranked : Ranked name rank db)
include ranked

theorem isCollection : db.IsCollection name := by
  obtain ⟨t, indexing, found, kind, -⟩ := ranked.there
  exact ⟨t, indexing, found, kind⟩

theorem rankConfig : db.rankConfig name = .ok rank := by
  obtain ⟨⟨own, _, rows⟩, indexing, found, rfl, rfl⟩ := ranked.there
  have config := ranked.owns name _ found .config
  simp only [Database.rankConfig, config]

theorem setRank {collection given : String} (set : db.setRank collection given = .ok db') :
    Ranked name (if Name.same collection name then some given else rank) db' := by
  obtain ⟨⟨own, _, rows⟩, indexing, found, rfl, rfl⟩ := ranked.there
  refine ⟨(ranked.toSound.setRank set).2, ?_⟩
  have named : Name.same own collection = Name.same collection name := by
    rw [Name.same_comm own, Name.same_congr (same_of_find?_table found)]
  rw [eq_of_setRank set, ranked.find?_withRank, found]
  by_cases concerned : Name.same collection name = true
  · exact ⟨⟨own, .indexed (indexing.withRank given), rows⟩, _,
      by simp [Named.change, named, concerned, Table.reindex], rfl,
        by simp [concerned, Indexing.withRank]⟩
  · exact ⟨⟨own, .indexed indexing, rows⟩, _, by simp [Named.change, named, concerned],
      rfl, by simp [concerned]⟩

end Ranked

theorem keptUnranked_ranked (name : String) (rank : Option String) :
    KeptUnranked (Ranked name rank) where
  withWriteAhead _ writeAhead before := ⟨before.withWriteAhead writeAhead, before.there⟩
  createCollection _ _ _ _ before created := by
    refine ⟨before.toSound.createCollection created, ?_⟩
    obtain ⟨t, indexing, found, kind, own⟩ := before.there
    rcases createCollection_cases created with ⟨rfl, -⟩ | ⟨-, -, tokenizer, -, rfl⟩
    · exact ⟨t, indexing, found, kind, own⟩
    · exact ⟨t, indexing, by rw [find?_append, found, Option.some_or], kind, own⟩
  map db f before same := by
    have keeps : ∀ t ∈ db.tables, (f t).name = t.name ∧ ∃ indexing,
      (f t).kind = .indexed indexing :=
      fun t member =>
        ⟨(same t member).name, (same t member).exists_indexed (before.indexed t member)⟩
    refine ⟨before.map keeps, ?_⟩
    obtain ⟨t, indexing, found, kind, own⟩ := before.there
    obtain ⟨j, after, segments, pending, rfl⟩ :=
      (same t (mem_of_find? found).1).indexed indexing kind
    exact ⟨f t, _, by rw [before.find?_map keeps, found]; rfl, after, own⟩

end TextArchive.Store.Database
