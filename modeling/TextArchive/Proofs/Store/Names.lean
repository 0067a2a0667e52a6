import TextArchive.Proofs.Store.Lookup
import Mathlib.Data.List.Infix

/-!
Which names a collection can be made under. The checks ask for letters, digits and underscores; the
database keeps words of its query language, names of its own tables and of the columns of a
collection for itself.
-/

set_option autoImplicit false
set_option relaxedAutoImplicit false

namespace TextArchive.Store

open TextArchive.Index (Tokenizer)

/-- Whether the database keeps a name for itself, so that no collection can be made under it. -/
def Name.isReserved (name : String) : Bool :=
  isKeyword name || isInternal name ||
    isAmong ("sqlite" :: Database.unreadableName :: "rank" :: columnNames) name

namespace Name

private theorem lower_data (collection : String) :
    lower (Auxiliary.data.tableName collection) = lower collection ++ "_data".toList := by
  rw [Auxiliary.tableName, lower_append, lower_append, List.append_assoc]
  rfl

private theorem isInternal_data (collection : String) :
    isInternal (Auxiliary.data.tableName collection) =
    (isInternal collection || same collection "sqlite") := by
  -- of the starts of the prefix only the longest becomes the whole of it when the suffix is added
  have short : ∀ l ∈ "sqlite_".toList.inits, ("sqlite_".toList <+: l ++ "_data".toList) →
      ("sqlite_".toList <+: l) ∨ l = lower "sqlite" := by decide +kernel
  have iff : ("sqlite_".toList <+: lower collection ++ "_data".toList) ↔
      ("sqlite_".toList <+: lower collection) ∨ lower collection = lower "sqlite" := by
    constructor
    · intro starts
      rcases List.prefix_or_prefix_of_prefix starts (List.prefix_append _ _) with within | beyond
      · exact .inl within
      · exact short _ ((List.mem_inits _ _).mpr beyond) starts
    · rintro (within | just)
      · exact within.trans (List.prefix_append _ _)
      · rw [just]
        decide +kernel
  rw [Bool.eq_iff_iff, isInternal, lower_data, List.isPrefixOf_iff_prefix, iff,
    Bool.or_eq_true, isInternal, List.isPrefixOf_iff_prefix, same_iff]

end Name

namespace Database

theorem find?_of_no_tables {db : Database} (none : db.tables = []) (name : String) :
    db.find? name = .none := by
  simp [find?, none]

theorem ofSpecification_standard : Tokenizer.ofSpecification "unicode61" = .ok .standard := by
  decide +kernel

/-- In a database without tables a collection with the standard tokenizer is made under every name
that is not reserved. -/
theorem createCollection_standard {db : Database} (none : db.tables = []) (name : String) :
    (Name.isReserved name = false → db.createCollection name "unicode61" =
      .ok { db with tables := db.tables ++ [⟨name, .indexed (.empty "unicode61" .standard), []⟩] }) ∧
    (Name.isReserved name = true → ∃ e, db.createCollection name "unicode61" = .error e) := by
  have closed : Statement.unclosedTokenizer? name "unicode61" = .none := rfl
  have free := find?_of_no_tables none
  have untaken : db.takenAuxiliary? name = .none :=
    List.find?_eq_none.mpr fun part _ => by simp [free]
  simp only [Name.isReserved, Name.isAmong, List.any_cons, createCollection, closed, free,
    Option.isSome_none, Bool.false_eq_true, if_false, addCollection, ofSpecification_standard,
      untaken, Name.isInternal_data]
  cases keyword : Name.isKeyword name
  swap
  · simp
  cases internal : Name.isInternal name
  swap
  · simp
  cases unreadable : Name.same name unreadableName
  swap
  · simp
  cases rank : Name.same name "rank"
  swap
  · simp
  cases beneath : Name.same name "sqlite"
  swap
  · simp
  by_cases column : columnNames.any (Name.same name) = true
  · simp [column]
  · simp [Bool.eq_false_iff.mpr column]

end Database

end TextArchive.Store
