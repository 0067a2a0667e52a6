import TextArchive.Ingest.Error

/-!
Options of an ingestion.
-/

set_option autoImplicit false
set_option relaxedAutoImplicit false

namespace TextArchive.Ingest

def standardBatchSize : Nat := 500

def standardTag : String :=
  "Lorem Ipsum is simply dummy text of the printing and typesetting industry. "
    ++ "Lorem Ipsum has been the industry's standard dummy text ever since the 1500s, "
    ++ "when an unknown printer took a galley of type and scrambled it to make a type specimen book. "
    ++ "It has survived not."

structure Options where
  batchSize : Nat := standardBatchSize
  maxFiles : Option Nat := none
  limitBytes : Option Nat := none
  tag : String := standardTag
  weights : Weights := .standard

/-- Options are refused if batches could hold nothing. -/
def Options.validate (o : Options) : Except InvalidArgument Unit :=
  if o.batchSize = 0 then .error .zeroBatchSize else .ok ()

def checkWeights (w : Weights) : Except InvalidArgument Weights :=
  if w.allFinite then .ok w else .error (.unboundedWeights w)

end TextArchive.Ingest
