/-
What a caller sees of a job: `public_response` (app/generations/repository.py)
against the contract it builds (app/contracts/generations.py).

The contract is a pydantic model, so a value outside its fields' types is
an exception of its own, which no handler of the API translates. The
timestamps of the response are columns of the job as they stand.
-/
import Mosaic.Generation.Repository

namespace Mosaic.Generation

open Lib

-- ============================================================== contract

/-- The `status` of `GenerationArtifactResponse`. -/
inductive PublicArtifactStatus
  | pending
  | ready
  | expired
  | deleted
deriving Repr, DecidableEq

/-- The literal a stored status is, if it is one of the contract's. -/
def ArtifactStatus.public? : ArtifactStatus → Option PublicArtifactStatus
  | .pending => some .pending
  | .ready => some .ready
  | .expired => some .expired
  | .deletePending => none
  | .deleted => some .deleted

/-- `GenerationArtifactResponse`. -/
structure GenerationArtifactResponse where
  artifactId : Nat
  kind : String
  status : PublicArtifactStatus
  mimeType : String
  sizeBytes : Int
deriving Repr, DecidableEq

/-- `GenerationJobResponse`. -/
structure GenerationJobResponse where
  jobId : Nat
  productModelId : String
  modality : Modality
  status : GenerationStatus
  createdAt : Nat
  updatedAt : Nat
  completedAt : Option Nat
  errorCode : Option String
  reconciliationPending : Bool
  artifacts : List GenerationArtifactResponse
deriving Repr, DecidableEq

/-- A pydantic `ValidationError`, by the model and the first field it names. -/
structure ValidationError where
  model : String
  field : String
deriving Repr, DecidableEq

/-- The kinds of the contract, as of `ck_generation_artifacts_kind_values`. -/
def artifactKinds : List String := ["input", "output", "thumbnail", "preview"]

/-- One artifact of the response. -/
def artifactResponse (e : Nat × GenerationArtifact) :
    Except ValidationError GenerationArtifactResponse := do
  let refuse := ValidationError.mk "GenerationArtifactResponse"
  raiseIf (e.2.kind ∉ artifactKinds) (refuse "kind")
  let status ← orRaise e.2.status.public? (refuse "status")
  raiseIf (boundedLength 255 e.2.stored.mimeType = false) (refuse "mime_type")
  raiseIf (e.2.stored.sizeBytes < 0) (refuse "size_bytes")
  return { artifactId := e.1, kind := e.2.kind, status, mimeType := e.2.stored.mimeType
           sizeBytes := e.2.stored.sizeBytes }

/-- `public_response`, of a record and its artifacts. -/
def publicResponse (r : GenerationRecord) (artifacts : List (Nat × GenerationArtifact)) :
    Except ValidationError GenerationJobResponse := do
  let refuse := ValidationError.mk "GenerationJobResponse"
  let artifacts ← artifacts.mapM artifactResponse
  raiseIf (isProductModelId r.job.productModelId = false) (refuse "product_model_id")
  raiseIf (r.job.errorCode.all isErrorCode = false) (refuse "error_code")
  raiseIf (64 < artifacts.length) (refuse "artifacts")
  return { jobId := r.jobId, productModelId := r.job.productModelId
           modality := r.job.modality, status := r.job.status
           createdAt := r.job.createdAt, updatedAt := r.job.updatedAt
           completedAt := r.job.completedAt, errorCode := r.job.errorCode
           reconciliationPending := r.job.status == .submittedUnknown
             && r.job.reconciliationStatus == .pending
           artifacts }

-- ================================================================ replay

/-- The artifacts `_materialize` reads. -/
def artifactsOf (s : Store) (tenantId jobId : Nat) : List (Nat × GenerationArtifact) :=
  s.artifacts.entries.filter fun e =>
    e.2.tenantId == tenantId && e.2.generationJobId == jobId

/-- How the endpoint can fail. -/
inductive AcceptFailure
  | domain (e : GenerationError)
  | contract (e : ValidationError)
deriving Repr, DecidableEq

/-- The endpoint that creates a job: `accept`, then `public_response` of its record. -/
def createGeneration (now : Nat) (catalog : Catalog.CatalogRows) (book : Catalog.PriceBook)
    (tenantId actorUserId : Nat) (request : CreateGenerationRequest)
    (requestHash : String) (s : Store) :
    Except AcceptFailure (GenerationJobResponse × Store) := do
  let (accepted, s) ← (accept now catalog book tenantId actorUserId request requestHash
    s).mapError .domain
  let response ← (publicResponse accepted.record
    (artifactsOf s tenantId accepted.record.jobId)).mapError .contract
  return (response, s)

end Mosaic.Generation
