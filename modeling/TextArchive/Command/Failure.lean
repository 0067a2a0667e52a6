import TextArchive.Ingest.Error
import TextArchive.Search

/-!
Failed requests and their reports: the message, and under it what is behind it, outermost first.
-/

set_option autoImplicit false
set_option relaxedAutoImplicit false

namespace TextArchive.Command

open TextArchive.File (Path)
open TextArchive.Ingest (IngestError)

inductive Failure where
  /-- Weights of a number other than four. -/
  | weightCount (count : Nat)
  | ingestion (db : Path) (error : IngestError)
  | noDatabase (db : Path)
  | refused (error : IngestError)
  | search (error : SearchError)

namespace Failure

/-- The messages of a failure to ingest or to open: its own, and those of what is behind it. -/
def ingestMessages (e : IngestError) : List String :=
  e.message ::
    match e.source? with
    | some source => source.message :: source.causes
    | none => []

def searchMessages (e : SearchError) : List String :=
  e.message ::
    match e with
    | .query source => source.message :: source.causes
    | .zeroHits => []

def messages : Failure → List String
  | .weightCount count => ["--rank-weights takes exactly four values, got " ++ toString count]
  | .ingestion db e => ("ingestion into " ++ db.display ++ " failed") :: ingestMessages e
  | .noDatabase db => ["database not found: " ++ db.display]
  | .refused e => ingestMessages e
  | .search e => searchMessages e

/-- A text with something before each of its lines but the first. -/
def hanging (indent : String) (text : String) : String :=
  String.intercalate ("\n" ++ indent)
    ((Text.Split.pieces (· = '\n') text.toList).map String.ofList)

def blanks (n : Nat) : String :=
  String.ofList (List.replicate n ' ')

/-- What stands under a message: a single cause is indented, several are numbered. -/
def causeLines : List String → List String
  | [] => []
  | [cause] => [blanks 4 ++ hanging (blanks 4) cause]
  | causes =>
    causes.zipIdx.map fun c =>
      blanks (5 - (toString c.2).length) ++ toString c.2 ++ ": " ++ hanging (blanks 7) c.1

def reportOf : List String → String
  | [] => ""
  | message :: [] => "Error: " ++ message ++ "\n"
  | message :: causes =>
    "Error: " ++ message ++ "\n\nCaused by:\n" ++ String.intercalate "\n" (causeLines causes) ++ "\n"

def report : Failure → String
  | .ingestion _ .capacityOverflow => IngestError.capacityOverflow.message ++ "\n"
  | f => reportOf f.messages

/-- The exit code: a program that ends by itself reports less than one that is ended. -/
def code : Failure → Nat
  | .ingestion _ .capacityOverflow => 101
  | _ => 1

end Failure

end TextArchive.Command
