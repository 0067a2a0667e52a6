import TextArchive.Ingest.Collection
import TextArchive.Ingest.Outcome
import TextArchive.Store.Storage

/-!
Connections to a collection of a database: one that makes what is missing and applies the settings
of a configuration, and one that makes and changes nothing.
-/

set_option autoImplicit false
set_option relaxedAutoImplicit false

namespace TextArchive.Store

open TextArchive.File (Path)
open TextArchive.Ingest (Event IngestError Outcome StoredCollection)

structure Connection where
  key : Nat
  medium : Medium
  path : Path
  collection : String
  /-- The mode that came of the configuration, if the connection was made with one. -/
  configuredMode : Option JournalMode
  settings : Settings
deriving DecidableEq, Repr

namespace Connection

/-- Keep what has been done to the collection of a connection. -/
def keep (c : Connection) (s : Storage) (done : StoredCollection) : Storage :=
  s.setDatabase c.key done.database

/-- The settings in force: a log belongs to the database and thus to all of its connections. -/
def settingsIn (c : Connection) (s : Storage) : Settings :=
  if (s.database c.key).writeAhead then { c.settings with journalMode := .wal } else c.settings

/-- Where the database is kept, if the settings in force do without a journal. -/
def unjournaled (c : Connection) (s : Storage) : Option Medium :=
  if (c.settingsIn s).journalMode = .off then some c.medium else none

def stored (c : Connection) (s : Storage) : StoredCollection :=
  ⟨s.database c.key, c.collection, c.unjournaled s⟩

end Connection

namespace Storage

/-- The journal mode of an attached database for which none has been asked. -/
def currentMode (s : Storage) (attached : Attached) : JournalMode :=
  if (s.database attached.key).writeAhead then .wal else attached.medium.firstMode

/-- Switch the log of a database on or off. -/
def setWriteAhead (s : Storage) (key : Nat) (mode : JournalMode) : Storage :=
  s.setDatabase key { s.database key with writeAhead := mode = .wal }

/-- What is logged when the settings have been applied. -/
def settingEvents (mode : JournalMode) (pragmas : Pragmas) : List Event :=
  (if Name.same mode.name pragmas.journalMode then []
    else [.journalModeNotApplied pragmas.journalMode mode.name])
    ++ [.pragmasApplied mode.name pragmas.synchronous pragmas.tempStore]

/-- The journal mode that an attached database has after settings have been applied. -/
def modeFor (s : Storage) (attached : Attached) (pragmas : Pragmas) : JournalMode :=
  attached.medium.modeAfter (s.currentMode attached) (JournalMode.requested? pragmas.journalMode)

/-- Why the journal mode of settings cannot be applied, if it cannot: it may not be read to its end,
a device takes no log, and a log in use is not given up. -/
def journalRefusal? (s : Storage) (attached : Attached) (pragmas : Pragmas) : Option StoreError :=
  match Statement.unclosedSetting? "journal_mode" pragmas.journalMode with
  | some e => some e
  | none =>
    if attached.medium = .device && s.modeFor attached pragmas = .wal then some .unwritable
    else if (s.database attached.key).writeAhead && s.connected.contains attached.key
      && s.modeFor attached pragmas ≠ .wal then some .locked
    else none

/-- The refusal of another setting that cannot be read to its end, if there is one. -/
def unclosedSetting? (pragmas : Pragmas) : Option StoreError :=
  [("synchronous", pragmas.synchronous), ("temp_store", pragmas.tempStore)].findSome? fun setting =>
    Statement.unclosedSetting? setting.1 setting.2

/-- Make the collection of a configuration in an attached database and connect to it. -/
def connectAttached (s : Storage) (path : Path) (config : Config) (attached : Attached) :
    Outcome Storage Connection :=
  let mode := s.modeFor attached config.pragmas
  let s := s.setWriteAhead attached.key mode
  let applied := settingEvents mode config.pragmas
  match (s.database attached.key).createCollection config.collection config.tokenizer with
  | .error e => ⟨applied, s, .error (.storeUnavailable path e)⟩
  | .ok db =>
    if attached.medium = .device then ⟨applied, s, .error (.storeUnavailable path .unwritable)⟩
    else
      ⟨applied ++ [.storeReady path config.collection config.tokenizer],
        { s.setDatabase attached.key db with connected := attached.key :: s.connected },
        .ok ⟨attached.key, attached.medium, path, config.collection, some mode,
          .asked mode config.pragmas⟩⟩

/-- Connect to a collection, making the database and the collection if they are missing. -/
def connect (s : Storage) (path : Path) (config : Config) : Outcome Storage Connection :=
  match config.validate with
  | .error e => .failed s (.invalidArgument e)
  | .ok () =>
    match s.attach path true with
    | .error e => .failed s (.storeUnavailable path e)
    | .ok (attached, s) =>
      match s.journalRefusal? attached config.pragmas with
      | some e => .failed s (.storeUnavailable path e)
      | none =>
        match unclosedSetting? config.pragmas with
        | some e =>
          .failed (s.setWriteAhead attached.key (s.modeFor attached config.pragmas))
            (.storeUnavailable path e)
        | none => s.connectAttached path config attached

/-- Connect to a collection that exists. -/
def connectExisting (s : Storage) (path : Path) (collection : String) :
    Outcome Storage Connection :=
  match checkName collection with
  | .error e => .failed s (.invalidArgument e)
  | .ok () =>
    match s.attach path false with
    | .error e => .failed s (.storeUnavailable path e)
    | .ok (attached, s) =>
      if (s.database attached.key).hasTable collection then
        .still { s with connected := attached.key :: s.connected }
          (.ok ⟨attached.key, attached.medium, path, collection, none,
            .unasked (s.currentMode attached)⟩)
      else .failed s (.collectionNotFound path collection)

def disconnect (s : Storage) (c : Connection) : Storage :=
  { s with connected := s.connected.erase c.key }

end Storage

end TextArchive.Store
