import TextArchive.Main
import TextArchive.Proofs.Command.Ingesting
import TextArchive.Proofs.Command.Printing
import TextArchive.Proofs.File.Interruption
import TextArchive.Proofs.File.Part
import TextArchive.Proofs.Ingest.BestEffort
import TextArchive.Proofs.Ingest.Building
import TextArchive.Proofs.Ingest.Completeness
import TextArchive.Proofs.Ingest.Limits
import TextArchive.Proofs.Ingest.Log
import TextArchive.Proofs.Ingest.Removal
import TextArchive.Proofs.Ingest.Writing
import TextArchive.Proofs.Search.Columns
import TextArchive.Proofs.Search.Frequency
import TextArchive.Proofs.Search.Hiding
import TextArchive.Proofs.Search.Matching
import TextArchive.Proofs.Search.RankRoundTrip
import TextArchive.Proofs.Session.Checking
import TextArchive.Proofs.Session.Creating
import TextArchive.Proofs.Session.Findability
import TextArchive.Proofs.Session.Listing
import TextArchive.Proofs.Session.Looking
import TextArchive.Proofs.Session.OwnFiles
import TextArchive.Proofs.Session.Ranks
import TextArchive.Proofs.Session.Reopening
import TextArchive.Proofs.Session.Upkeep
import TextArchive.Proofs.Store.Definition
