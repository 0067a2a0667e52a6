import TextArchive.Ingest.Ingestion
import TextArchive.Store.Connection

/-!
A whole run: the files below a folder are ingested into a collection of a database. The folder is
looked at before the database is touched, so that a folder that is not there leaves no database
behind.
-/

set_option autoImplicit false
set_option relaxedAutoImplicit false

namespace TextArchive.Ingest

open TextArchive.File (Disk Path Visit Walk)
open TextArchive.Store (Config Engine Storage)

/-- A folder to take files from: its absolute path. -/
structure Folder where
  root : Path
deriving DecidableEq, Repr

namespace Folder

/-- The folder of a path, if the path leads to a directory. -/
def ofPath (disk : Disk) (path : Path) : Except IngestError Folder :=
  if disk.isDirectory path then
    ((path.absolute? disk.workingDirectory).map fun root => Except.ok ⟨root⟩).getD
      (.error (.rootNotFound path))
  else .error (.rootNotFound path)

def walk (folder : Folder) : Walk :=
  .below folder.root

def itemsOf (folder : Folder) (visits : List Visit) : List SourceItem :=
  visits.filterMap (SourceItem.ofVisit? folder.root)

/-- What a folder gives while its files stay as they are. -/
def items (folder : Folder) (disk : Disk) : List SourceItem :=
  folder.itemsOf (folder.walk.visits disk)

end Folder

namespace Ingestion

variable [Engine]

/-- Ingest into the collection of a connection; the records are built from the files as they show
themselves. -/
def ingestConnected (options : Options) (source : Disk → List SourceItem) (s : Storage)
    (connection : Store.Connection) : Outcome Storage Report :=
  let disk := s.shown
  (ingest options ((builder options).build disk) (source disk) (connection.stored s)).mapState
    (connection.keep s)

/-- Ingest the files below a folder into a collection that is made if it is missing. -/
def run (options : Options) (root path : Path) (config : Config) (s : Storage) :
    Outcome Storage Report :=
  match options.validate with
  | .error e => .failed s (.invalidArgument e)
  | .ok () =>
    match Folder.ofPath s.shown root with
    | .error e => .failed s e
    | .ok folder =>
      (s.connect path config).andThen fun connection s =>
        (ingestConnected options folder.items s connection).mapState (·.disconnect connection)

end Ingestion

end TextArchive.Ingest
