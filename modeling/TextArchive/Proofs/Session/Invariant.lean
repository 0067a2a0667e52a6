import TextArchive.Proofs.Session.AppendOnly
import TextArchive.Proofs.Store.Frame

/-!
What every change of a database keeps. A property that is kept holds of a database after any
operation if it held before, and of all databases of a session if it holds of the empty one.
-/

set_option autoImplicit false
set_option relaxedAutoImplicit false

namespace TextArchive

open TextArchive.File (Path)
open TextArchive.Ingest
open TextArchive.Store (Attached Config Connection Database Engine Storage StoreError)

namespace Store.Database.Kept

variable {P : Database → Prop}

theorem of_changed {s : StoredCollection} (before : P s.database)
    {result : Except StoreError Database}
    (changed : ∀ db, result = .ok db → P db) : P (s.after result).2.database := by
  cases result with
  | error e => exact before
  | ok db => exact changed db rfl

theorem of_setDatabase {s : Storage} {key : Nat} (before : P (s.database key)) {other : Nat}
    {db : Database}
    (here : other = key → P db) : P ((s.setDatabase other db).database key) := by
  rw [Storage.database_setDatabase]
  split
  · rename_i same
    exact here same.1
  · exact before

theorem of_connectExisting {s : Storage} {key : Nat} (before : P (s.database key)) (path : Path)
    (collection : String) : P ((s.connectExisting path collection).state.database key) := by
  unfold Storage.connectExisting
  split
  · exact before
  split
  · exact before
  rename_i attached s' found
  have there := (Storage.attaches_of_attach found).database key ▸ before
  split <;> exact there

end Store.Database.Kept

namespace Store.Database.KeptUnranked

open Kept (of_setDatabase)

variable {P : Database → Prop} (kept : KeptUnranked P)
include kept

theorem connect {s : Storage} {key : Nat} (before : P (s.database key)) (path : Path)
    (config : Config) :
    P ((s.connect path config).state.database key) := by
  unfold Storage.connect
  split
  · exact before
  split
  · exact before
  rename_i attached s' found
  have attaches := Storage.attaches_of_attach found
  have there : P (s'.database key) := attaches.database key ▸ before
  have switched : ∀ mode, P ((s'.setWriteAhead attached.key mode).database key) := fun mode =>
    of_setDatabase there fun same => kept.withWriteAhead _ _ (same ▸ there)
  split
  · exact there
  split
  · exact switched _
  simp only [Storage.connectAttached]
  split
  · exact switched _
  rename_i db created
  split
  · exact switched _
  · exact of_setDatabase (switched _) fun same =>
      kept.createCollection _ db _ _ (same ▸ switched _) created

end Store.Database.KeptUnranked

namespace Store.Database.Kept

variable [Engine] {P : Database → Prop} (kept : Kept P)
include kept

private theorem take {s : StoredCollection} (before : P s.database) (weights : Weights)
    (step : MaintenanceStep) :
    P (Maintenance.take weights s step).2.database := by
  cases step with
  | setRank => exact of_changed before fun db set => kept.setRank _ db _ _ before set
  | rebuild => exact of_changed before fun db rebuilt => kept.rebuild before rebuilt
  | optimize => exact of_changed before fun db optimized => kept.optimize before optimized

section Storage

variable {s : Storage} {key : Nat} (before : P (s.database key))
include before

theorem ingestConnected (options : Options) (source : File.Disk → List SourceItem)
    (c : Connection) :
    P ((Ingestion.ingestConnected options source s c).state.database key) := by
  refine of_setDatabase before fun same => ?_
  have here : P (c.stored s).database := by
    rw [Connection.stored, same]
    exact before
  let holds (sc : StoredCollection) : Prop := P sc.database
  have insert : ∀ sc records, holds sc → holds (FullTextCollection.insertBatch sc records).2 :=
    fun _ records taken => kept.insertBatch taken _ _ records
  have take : ∀ sc step, holds sc → holds (Maintenance.take options.weights sc step).2 :=
    fun _ step taken => kept.take taken options.weights step
  exact ingest_preserves options insert take here _ _

private theorem run (options : Options) (root path : Path) (config : Config) :
    P ((Ingestion.run options root path config s).state.database key) := by
  unfold Ingestion.run
  split
  · exact before
  split
  · exact before
  rename_i folder _
  have connected := kept.connect before path config
  generalize s.connect path config = made at connected
  rcases made with ⟨events, s', e | c⟩
  · exact connected
  · exact kept.ingestConnected connected options folder.items c

end Storage

end Store.Database.Kept

namespace Session

open Store.Database.Kept (of_setDatabase of_connectExisting)

variable [Engine] {P : Database → Prop} (kept : Database.Kept P)
include kept

theorem perform_keeps {s : Session} {key : Nat} (before : P (s.storage.database key))
    (operation : Operation) :
    P ((s.perform operation).storage.database key) := by
  cases operation with
  | connect path config => exact kept.connect before path config
  | connectExisting path collection => exact of_connectExisting before path collection
  | run options root path config => exact kept.run before options root path config
  | use n use =>
    simp only [Session.perform]
    cases s.connections[n]? with
    | none => exact before
    | some c =>
      have here : c.key = key → P (c.stored s.storage).database := by
        intro same
        rw [Connection.stored, same]
        exact before
      have take := fun weights step (same : c.key = key) => kept.take (here same) weights step
      cases use with
      | insertBatch records =>
        exact of_setDatabase before fun same => kept.insertBatch (here same) _ _ records
      | setRank weights => exact of_setDatabase before (take weights .setRank)
      | rebuild => exact of_setDatabase before (take .standard .rebuild)
      | optimize => exact of_setDatabase before (take .standard .optimize)
      | maintain weights =>
        let holds (sc : StoredCollection) : Prop := P sc.database
        have step : ∀ sc step, holds sc → holds (Maintenance.take weights sc step).2 :=
          fun _ step taken => kept.take taken weights step
        exact of_setDatabase before fun same => maintenance_preserves weights step (here same)
      | ingest options source => exact kept.ingestConnected before options source c
      | search text topK => exact before
      | count => exact before
      | close => exact before

/-- Every database of a session that operations lead to has what an empty one has and every change
keeps. -/
theorem Reachable.of_kept (empty : P .empty) {s : Session} (reachable : s.Reachable) (key : Nat) :
    P (s.storage.database key) := by
  induction reachable with
  | start disk plain => exact empty
  | perform _ operation ih => exact perform_keeps kept ih operation
  | changeFiles _ disk known ih => exact ih

end Session

end TextArchive
