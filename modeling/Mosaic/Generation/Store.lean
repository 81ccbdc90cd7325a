/-
The durable rows of the generation subsystem
(app/infrastructure/models.py): jobs, artifacts, the idempotency records
of acceptance, the outbox commands and the audit trail.

# Identifiers

A job has a primary key and a public `job_id`, allocated together and
never changed; both are the row's position in its table. A lease token
is a fresh UUID: it comes from the counter `nextUuid`, which only grows.

# Columns left out

The product key of a job is read through two restricted foreign keys; it
is a column here. The accepted revision, policy and schema of a job are
written once and read by none of the modelled operations.
-/
import Mosaic.Billing.Service
import Mosaic.Catalog.Decision
import Mosaic.Generation.Executor
import Mosaic.Generation.State

namespace Mosaic.Generation

open Lib Providers

/-- `now + timedelta(seconds=n)`; instants are microseconds. -/
def after (now n : Nat) : Nat := now + n * 1000000

-- ================================================================= rows

inductive ReconciliationStatus
  | notRequired
  | pending
  | resolved
  | disputed
deriving Repr, DecidableEq

/-- What a claim writes into `claim_owner`, `lease_token` and
`lease_expires_at`. -/
structure Lease where
  owner : String
  token : Nat
  expiresAt : Nat
deriving Repr, DecidableEq

/-- A row of `generation_jobs`. -/
structure GenerationJob where
  tenantId : Nat
  actorUserId : Option Nat
  modelDeploymentId : Nat
  productModelId : String
  modality : Modality
  status : GenerationStatus
  requestHash : String
  requestPayload : List (String × Json)
  acceptedPriceVersionId : Nat
  billingReservationId : Option Nat
  claimOwner : Option String
  leaseToken : Option Nat
  leaseExpiresAt : Option Nat
  fencingToken : Nat
  reconciliationStatus : ReconciliationStatus
  providerRequestId : Option String
  providerTaskId : Option String
  providerObservedStatus : Option String
  providerObservedAt : Option Nat
  errorCode : Option String
  startedAt : Option Nat
  completedAt : Option Nat
  deletedAt : Option Nat
  createdAt : Nat
  updatedAt : Nat

inductive ArtifactStatus
  | pending
  | ready
  | expired
  | deletePending
  | deleted
deriving Repr, DecidableEq

/-- `StoredArtifact`. -/
structure StoredArtifact where
  storageProvider : String
  objectKey : String
  mimeType : String
  sizeBytes : Int
  sha256 : Option String
  expiresAt : Option Nat
deriving Repr, DecidableEq

/-- `GenerationArtifactInput`. -/
structure GenerationArtifactInput where
  kind : String
  stored : StoredArtifact
deriving Repr, DecidableEq

/-- A row of `generation_artifacts`. -/
structure GenerationArtifact where
  tenantId : Nat
  generationJobId : Nat
  kind : String
  status : ArtifactStatus
  stored : StoredArtifact
deriving Repr, DecidableEq

/-- A row of `idempotency_records` of the operation `generation.create`;
it is completed in the transaction that inserts it. -/
structure IdempotencyRecord where
  tenantId : Nat
  actorUserId : Nat
  key : String
  requestHash : String
  resourceId : Nat
deriving Repr, DecidableEq

/-- A `generation.accepted` row of `outbox_events`. -/
structure OutboxEvent where
  tenantId : Nat
  aggregateId : Nat
  aggregateVersion : Nat
  modality : Modality
  productModelId : String
  reservationId : Nat
deriving Repr, DecidableEq

/-- A row of `audit_events`, without the request context. -/
structure AuditEvent where
  tenantId : Nat
  actorUserId : Option Nat
  action : String
  resourceId : Nat
  payload : List (String × String)
deriving Repr, DecidableEq

-- ================================================================ store

/-- The generation tables and the billing tables they are settled in. -/
structure Store where
  jobs : Table GenerationJob
  artifacts : Table GenerationArtifact
  idempotency : Table IdempotencyRecord
  outbox : Table OutboxEvent
  audit : Table AuditEvent
  billing : Billing.Db
  nextUuid : Nat

/-- What the billing service reads of the accepted jobs. -/
def Store.sources (s : Store) (book : Catalog.PriceBook) : Billing.Sources :=
  { inferencePriceVersionId := fun _ _ => none
    generationPriceVersionId := fun tenantId id =>
      ((s.jobs.get id).filter fun j => j.tenantId == tenantId).map
        (·.acceptedPriceVersionId)
    priceVersions := book }

/-- `uq_generation_jobs_provider_request` and
`uq_generation_jobs_provider_task`: another job of the deployment already
carries this provider id. -/
def providerIdTaken (s : Store) (column : GenerationJob → Option String) (jobId : Nat)
    (j : GenerationJob) (value : Option String) : Bool :=
  value.isSome && s.jobs.entries.any fun e =>
    e.1 != jobId && e.2.tenantId == j.tenantId
      && e.2.modelDeploymentId == j.modelDeploymentId && column e.2 == value

/-- `GenerationRecord`: a job as it was read. -/
structure GenerationRecord where
  jobId : Nat
  job : GenerationJob

/-- What the executor reads of a record. -/
def GenerationRecord.execution (r : GenerationRecord) : Job :=
  { modality := r.job.modality, productModelId := r.job.productModelId
    requestPayload := r.job.requestPayload, submissionRecorder := true }

/-- `_require_job_fence`. -/
def requireJobFence (r : GenerationRecord) : Except GenerationError (Nat × Nat) := do
  let token ← orRaise r.job.leaseToken (.infrastructure "GENERATION_FENCE_MISSING")
  raiseIf (r.job.fencingToken < 1) (.infrastructure "GENERATION_FENCE_MISSING")
  return (token, r.job.fencingToken)

end Mosaic.Generation
