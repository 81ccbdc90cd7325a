/-
The generation repository (app/generations/repository.py): acceptance,
the three claims, the fenced writes of a lease holder and completion;
with the route of an acceptance (voice_resources.py) and the heartbeat
of worker.py, which is a fenced write too.

Every operation is one short database transaction: it commits or raises.
A claim takes its row with `SKIP LOCKED`; which rows other transactions
hold at that moment is the argument `locked`. A fenced write names the
lease token and the fencing token of its caller and touches nothing when
the row carries others, or when the lease has run out.
-/
import Mosaic.Generation.Store
import Mosaic.Providers.Http

namespace Mosaic.Generation

open Lib Providers

-- ================================================================ route

/-- `resolve_audio_voice_binding`: `none` is `VoiceResourceUnavailable`,
`some none` a route without audio. -/
def resolveAudioVoiceBinding (providerModelId : String)
    (routingConfig entitlementConfig : List (String × Json)) :
    Option (Option AudioVoiceBinding) :=
  let usable := fun voice : Json =>
    (voice.str?.filter fun v => !PyStr.blank v).map fun v =>
      some { targetModel := providerModelId, providerVoiceId := PyStr.strip v }
  match (Json.field routingConfig "live_modality").str? with
  | some "audio" =>
      match Json.field routingConfig "voice_resource_required" with
      | .bool true => do
          let resource ← (Json.field entitlementConfig "voice_resource").obj?
          if (Json.field resource "status").str? = some "active"
              ∧ (Json.field resource "target_model").str? = some providerModelId then
            usable (Json.field resource "provider_voice_id")
          else none
      | _ => usable (Json.field routingConfig "default_voice")
  | _ => some none

def Modality.catalog : Modality → Catalog.Modality
  | .text => .text
  | .image => .image
  | .video => .video
  | .audio => .audio

/-- `DeploymentRoute`, as far as acceptance reads it. -/
structure DeploymentRoute where
  productModelDbId : Nat
  productModelId : String
  deploymentId : Nat
deriving Repr, DecidableEq

/-- One row of `_route_query`, if it is usable. -/
def routeOf (catalog : Catalog.CatalogRows) (tenantId : Nat)
    (row : Nat × Catalog.ModelDeployment) : Option DeploymentRoute := do
  let product ← catalog.products.get row.2.productModelId
  let entitlement ← catalog.entitlements.find? fun e =>
    e.tenantId == tenantId && e.productModelId == row.2.productModelId && e.enabled
  if (Json.field product.capabilities "execution_policy").str? = some "unsupported" then
    none
  else do
    let _ ← resolveAudioVoiceBinding row.2.providerModelId row.2.routingConfig
      entitlement.config
    return { productModelDbId := row.2.productModelId
             productModelId := product.modelKey, deploymentId := row.1 }

/-- `_resolve_route`: the first usable row by priority and age. -/
def resolveRoute (catalog : Catalog.CatalogRows) (tenantId : Nat)
    (request : CreateGenerationRequest) : Except GenerationError DeploymentRoute :=
  let rows := catalog.deployments.ordered catalog.routeLe
    fun e => e.2.status == .active
      && Catalog.entitled catalog tenantId e.2.productModelId
      && (catalog.products.get e.2.productModelId).any (fun p =>
          p.modelKey == request.productModelId && p.modality == request.modality.catalog
            && p.status == .active)
      && (catalog.endpoints.get e.2.providerEndpointId).any fun p => p.status == .active
  orRaise (rows.findSome? (routeOf catalog tenantId)) .modelUnavailable

-- =============================================================== accept

/-- `AcceptedGeneration`. -/
structure AcceptedGeneration where
  record : GenerationRecord
  replayed : Bool

/-- The row of a job an acceptance inserts. -/
def acceptedJob (now tenantId actorUserId : Nat) (request : CreateGenerationRequest)
    (requestHash : String) (route : DeploymentRoute) (priceVersionId reservationId : Nat) :
    GenerationJob :=
  { tenantId, actorUserId := some actorUserId, modelDeploymentId := route.deploymentId
    productModelId := route.productModelId, modality := request.modality
    status := .accepted, requestHash, requestPayload := request.modelDump
    acceptedPriceVersionId := priceVersionId
    billingReservationId := some reservationId, claimOwner := none, leaseToken := none
    leaseExpiresAt := none, fencingToken := 0
    reconciliationStatus := .notRequired, providerRequestId := none
    providerTaskId := none, providerObservedStatus := none, providerObservedAt := none
    errorCode := none, startedAt := none, completedAt := none, deletedAt := none
    createdAt := now, updatedAt := now }

/-- The new-request branch of `accept`. -/
def acceptNew (now : Nat) (catalog : Catalog.CatalogRows) (book : Catalog.PriceBook)
    (tenantId actorUserId : Nat) (request : CreateGenerationRequest)
    (requestHash : String) (s : Store) :
    Except GenerationError (AcceptedGeneration × Store) := do
  let route ← resolveRoute catalog tenantId request
  let decision ← orRaise (Catalog.resolveAcceptedDecision catalog book
    route.productModelDbId route.deploymentId now) .modelUnavailable
  let jobId := s.jobs.nextId
  let (reservation, billing) ← (Billing.reserveInTransaction now tenantId "generation"
    jobId decision.price (after now (15 * 60)) s.billing).mapError .billing
  let job := acceptedJob now tenantId actorUserId request requestHash route
    decision.priceVersionId reservation.reservationId
  return ({ record := ⟨jobId, job⟩, replayed := false },
    { s with
      jobs := s.jobs.insert job
      billing
      outbox := s.outbox.insert
        { tenantId, aggregateId := jobId, aggregateVersion := 1
          modality := request.modality, productModelId := request.productModelId
          reservationId := reservation.reservationId }
      idempotency := s.idempotency.insert
        { tenantId, actorUserId, key := PyStr.strip request.clientRequestId
          requestHash, resourceId := jobId } })

/-- `accept`. -/
def accept (now : Nat) (catalog : Catalog.CatalogRows) (book : Catalog.PriceBook)
    (tenantId actorUserId : Nat) (request : CreateGenerationRequest)
    (requestHash : String) (s : Store) :
    Except GenerationError (AcceptedGeneration × Store) :=
  match s.idempotency.find fun i => i.tenantId == tenantId
      && i.actorUserId == actorUserId
      && i.key == PyStr.strip request.clientRequestId with
  | some (_, existing) => do
      raiseIf (existing.requestHash ≠ requestHash) .idempotencyConflict
      let job ← orRaise ((s.jobs.get existing.resourceId).filter fun j =>
        j.tenantId == tenantId) (.infrastructure "GENERATION_PERSISTENCE_UNAVAILABLE")
      return ({ record := ⟨existing.resourceId, job⟩, replayed := true }, s)
  | none => acceptNew now catalog book tenantId actorUserId request requestHash s

-- =============================================================== claims

/-- `_validate_claim_input`. -/
def validateClaimInput (workerId : String) (leaseSeconds : Nat) :
    Except GenerationError Unit := do
  raiseIf (PyStr.blank workerId = true ∨ PyStr.len workerId > 200)
    (.value "generation claim owner is invalid")
  raiseIf (¬(1 ≤ leaseSeconds ∧ leaseSeconds ≤ 3600))
    (.value "generation lease must be between 1 and 3600 seconds")

/-- The lease a claim writes. -/
def newLease (now : Nat) (workerId : String) (leaseSeconds : Nat) (s : Store) : Lease :=
  { owner := workerId, token := s.nextUuid, expiresAt := after now leaseSeconds }

/-- A row with a lease of its own and the next fencing token. -/
def GenerationJob.leased (j : GenerationJob) (now : Nat) (lease : Lease) :
    GenerationJob :=
  { j with
    claimOwner := some lease.owner, leaseToken := some lease.token
    leaseExpiresAt := some lease.expiresAt, fencingToken := j.fencingToken + 1
    updatedAt := now }

/-- A row without a lease. -/
def GenerationJob.unleased (j : GenerationJob) : GenerationJob :=
  { j with claimOwner := none, leaseToken := none, leaseExpiresAt := none }

/-- The row `claim_accepted` and `claim_next_accepted` write. -/
def GenerationJob.claimed (j : GenerationJob) (now : Nat) (lease : Lease) :
    GenerationJob :=
  { j.leased now lease with
    status := .reserved, startedAt := some (j.startedAt.getD now) }

/-- Write a claimed row and hand it out; its token is used up. -/
def takeClaim (s : Store) (jobId : Nat) (row : GenerationJob) :
    Option GenerationRecord × Store :=
  (some ⟨jobId, row⟩,
    { s with jobs := s.jobs.modify jobId fun _ => row, nextUuid := s.nextUuid + 1 })

/-- What `claim_accepted` and `claim_next_accepted` look for. -/
def claimable (locked : Nat → Bool) (e : Nat × GenerationJob) : Bool :=
  e.2.status == .accepted && e.2.leaseToken.isNone && !locked e.1

/-- `claim_accepted`. -/
def claimAccepted (now : Nat) (locked : Nat → Bool) (tenantId jobId : Nat)
    (workerId : String) (leaseSeconds : Nat) (s : Store) :
    Except GenerationError (Option GenerationRecord × Store) := do
  validateClaimInput workerId leaseSeconds
  return match (s.jobs.get jobId).filter fun j =>
      j.tenantId == tenantId && claimable locked (jobId, j) with
    | none => (none, s)
    | some j => takeClaim s jobId (j.claimed now (newLease now workerId leaseSeconds s))

/-- `claim_next_accepted`. -/
def claimNextAccepted (now : Nat) (locked : Nat → Bool) (tenantId : Option Nat)
    (modalities : Option (List Modality)) (workerId : String) (leaseSeconds : Nat)
    (s : Store) : Except GenerationError (Option GenerationRecord × Store) := do
  validateClaimInput workerId leaseSeconds
  return match (s.jobs.ordered
      (fun a b => a.2.createdAt < b.2.createdAt
        || (a.2.createdAt == b.2.createdAt && a.1 ≤ b.1))
      fun e => claimable locked e && tenantId.all (· == e.2.tenantId)
        && modalities.all (·.contains e.2.modality)).head? with
    | none => (none, s)
    | some (jobId, j) =>
        takeClaim s jobId (j.claimed now (newLease now workerId leaseSeconds s))

/-- `lease_token IS NULL OR lease_expires_at <= now`. -/
def reclaimable (now : Nat) (j : GenerationJob) : Bool :=
  j.leaseToken.isNone || j.leaseExpiresAt.any (· ≤ now)

/-- `claim_pending_reconciliation`. -/
def claimPendingReconciliation (now : Nat) (locked : Nat → Bool) (workerId : String)
    (leaseSeconds : Nat) (s : Store) :
    Except GenerationError (Option GenerationRecord × Store) := do
  validateClaimInput workerId leaseSeconds
  return match (s.jobs.ordered
      (fun a b => a.2.updatedAt < b.2.updatedAt
        || (a.2.updatedAt == b.2.updatedAt && a.1 ≤ b.1))
      fun e => e.2.status == .submittedUnknown
        && e.2.reconciliationStatus == .pending && e.2.modality == .video
        && e.2.providerTaskId.isSome && reclaimable now e.2 && !locked e.1).head? with
    | none => (none, s)
    | some (jobId, j) =>
        takeClaim s jobId (j.leased now (newLease now workerId leaseSeconds s))

-- =============================================================== fences

/-- What a lease holder names in every write. -/
structure Fence where
  tenantId : Nat
  jobId : Nat
  leaseToken : Nat
  fencingToken : Nat
deriving Repr, DecidableEq

/-- `_validate_fence`. -/
def validateFence (f : Fence) : Except GenerationError Unit :=
  raiseIf (f.fencingToken < 1) (.value "generation fencing token must be positive")

/-- The row carries the holder's tokens. -/
def Fence.matches (f : Fence) (j : GenerationJob) : Bool :=
  j.tenantId == f.tenantId && j.leaseToken.any (· == f.leaseToken)
    && j.fencingToken == f.fencingToken

/-- And its lease has not run out. -/
def Fence.live (f : Fence) (now : Nat) (j : GenerationJob) : Bool :=
  f.matches j && j.leaseExpiresAt.any (now < ·)

/-- The row of the fence, if it is `live` and satisfies `p`. -/
def Fence.row (f : Fence) (now : Nat) (s : Store) (p : GenerationJob → Bool) :
    Option GenerationJob :=
  (s.jobs.get f.jobId).filter fun j => f.live now j && p j

/-- Rewrite one job. -/
def Store.setJob (s : Store) (jobId : Nat) (j : GenerationJob) : Store :=
  { s with jobs := s.jobs.modify jobId fun _ => j }

/-- `release_reconciliation_claim`. -/
def releaseReconciliationClaim (now : Nat) (f : Fence) (s : Store) :
    Except GenerationError (Unit × Store) := do
  validateFence f
  let j ← orRaise ((s.jobs.get f.jobId).filter fun j => f.matches j
    && j.status == .submittedUnknown && j.reconciliationStatus == .pending)
    .stateConflict
  return ((), s.setJob f.jobId { j.unleased with updatedAt := now })

/-- The row a renewal writes. -/
def GenerationJob.renewed (j : GenerationJob) (now leaseSeconds : Nat) :
    GenerationJob :=
  { j with leaseExpiresAt := some (after now leaseSeconds), updatedAt := now }

/-- `renew_lease`, and the statement of `ensure_live`. -/
def renewLease (now : Nat) (f : Fence) (workerId : String) (leaseSeconds : Nat)
    (s : Store) : Except GenerationError (GenerationRecord × Store) := do
  validateClaimInput workerId leaseSeconds
  validateFence f
  let j ← orRaise (f.row now s fun j => j.status.inProgress
    && j.claimOwner.any (· == workerId)) .stateConflict
  let row := j.renewed now leaseSeconds
  return (⟨f.jobId, row⟩, s.setJob f.jobId row)

/-- `ensure_live`; the phase it is given is a constant of the worker. -/
def ensureLive (now : Nat) (f : Fence) (workerId : String) (leaseSeconds : Nat)
    (s : Store) : Except GenerationError (Unit × Store) := do
  raiseIf (PyStr.blank workerId = true ∨ f.fencingToken < 1)
    (.value "heartbeat fence is invalid")
  let j ← orRaise (f.row now s fun j => j.status.inProgress
    && j.claimOwner.any (· == workerId)) (.infrastructure "GENERATION_HEARTBEAT_LOST")
  return ((), s.setJob f.jobId (j.renewed now leaseSeconds))

-- =========================================================== transition

/-- `_ERROR_CODE_RE`: `^[A-Z0-9_]{1,120}$`. -/
def isErrorCode (s : String) : Bool :=
  1 ≤ PyStr.len s && PyStr.len s ≤ 120
    && s.toList.all fun c => ('A' ≤ c && c ≤ 'Z') || isAsciiDigit c || c == '_'

/-- The optional columns of a transition. -/
structure TransitionValues where
  errorCode : Option String := none
  providerRequestId : Option String := none
  providerTaskId : Option String := none
  providerObservedStatus : Option String := none
deriving Repr, DecidableEq

/-- The targets that give the lease up. -/
def GenerationStatus.clearsLease : GenerationStatus → Bool
  | .accepted => true
  | .submittedUnknown => true
  | .failed => true
  | .cancelled => true
  | .expired => true
  | .succeeded => true
  | _ => false

/-- The row a transition writes. -/
def GenerationJob.transitioned (j : GenerationJob) (now : Nat)
    (target : GenerationStatus) (v : TransitionValues) : GenerationJob :=
  { j with
    status := target, updatedAt := now
    completedAt := if target.isTerminal then some now else j.completedAt
    claimOwner := if target.clearsLease then none else j.claimOwner
    leaseToken := if target.clearsLease then none else j.leaseToken
    leaseExpiresAt := if target.clearsLease then none else j.leaseExpiresAt
    reconciliationStatus :=
      if target = .submittedUnknown then .pending else j.reconciliationStatus
    errorCode := v.errorCode <|> j.errorCode
    providerRequestId := v.providerRequestId <|> j.providerRequestId
    providerTaskId := v.providerTaskId <|> j.providerTaskId
    providerObservedStatus := v.providerObservedStatus <|> j.providerObservedStatus
    providerObservedAt :=
      if v.providerObservedStatus.isSome then some now else j.providerObservedAt }

/-- `transition`. -/
def transition (now : Nat) (f : Fence) (expected target : GenerationStatus)
    (v : TransitionValues) (s : Store) :
    Except GenerationError (GenerationRecord × Store) := do
  assertTransition expected target
  validateFence f
  raiseIf (v.errorCode.all isErrorCode = false)
    (.value "error_code must contain only uppercase letters, digits, and underscores")
  raiseIf (v.providerObservedStatus.all (fun o => !PyStr.blank o && PyStr.len o ≤ 64)
    = false) (.value "provider observed status is invalid")
  let j ← orRaise (f.row now s fun j => j.status == expected) .stateConflict
  raiseIf (providerIdTaken s (·.providerRequestId) f.jobId j v.providerRequestId = true)
    (.integrity "uq_generation_jobs_provider_request")
  raiseIf (providerIdTaken s (·.providerTaskId) f.jobId j v.providerTaskId = true)
    (.integrity "uq_generation_jobs_provider_task")
  let row := j.transitioned now target v
  return (⟨f.jobId, row⟩, s.setJob f.jobId row)

/-- `record_provider_task`. -/
def recordProviderTask (now : Nat) (f : Fence) (providerTaskId : String) (s : Store) :
    Except GenerationError (Unit × Store) := do
  validateFence f
  raiseIf (PyStr.blank providerTaskId = true ∨ PyStr.len providerTaskId > 255)
    (.value "provider_task_id is invalid")
  let j ← orRaise (f.row now s fun j => j.status == .submitted && j.providerTaskId.isNone)
    .stateConflict
  raiseIf (providerIdTaken s (·.providerTaskId) f.jobId j (some providerTaskId) = true)
    (.integrity "uq_generation_jobs_provider_task")
  return ((), s.setJob f.jobId
    { j with providerTaskId := some providerTaskId, updatedAt := now })

/-- `record_provider_request`. -/
def recordProviderRequest (now : Nat) (f : Fence) (providerRequestId : String)
    (s : Store) : Except GenerationError (Unit × Store) := do
  validateFence f
  raiseIf (PyStr.blank providerRequestId = true ∨ PyStr.len providerRequestId > 255)
    (.value "provider_request_id is invalid")
  let j ← orRaise (f.row now s fun j =>
    j.status == .submitted && j.providerRequestId.isNone) .stateConflict
  raiseIf (providerIdTaken s (·.providerRequestId) f.jobId j (some providerRequestId)
    = true) (.integrity "uq_generation_jobs_provider_request")
  return ((), s.setJob f.jobId
    { j with providerRequestId := some providerRequestId, updatedAt := now })

-- ============================================================ completion

/-- `GenerationExecutionResult`. The ten measures of its usage are the
ones billing reads, and none is negative. -/
structure GenerationExecutionResult where
  artifacts : List GenerationArtifactInput := []
  providerRequestId : Option String := none
  providerTaskId : Option String := none
  usage : Billing.BillingUsage := {}
deriving Repr, DecidableEq

/-- `".." in key.replace("\\", "/").split("/")`. -/
def climbs (key : List Char) : Bool :=
  (key.map fun c => if c = '\\' then '/' else c).splitOn '/' |>.any (· == ['.', '.'])

/-- `_validate_artifact_input`. -/
def validateArtifactInput (item : GenerationArtifactInput) :
    Except GenerationError Unit := do
  raiseIf (item.kind ∉ ["output", "thumbnail", "preview", "input"])
    (.value "unsupported generation artifact kind")
  let key := item.stored.objectKey.toList
  raiseIf (PyStr.blank item.stored.storageProvider = true
    ∨ PyStr.blank item.stored.objectKey = true
    ∨ key.head? = some '/' ∨ key.head? = some '\\' ∨ climbs key = true
    ∨ PyStr.blank item.stored.mimeType = true ∨ item.stored.sizeBytes < 0)
    (.value "invalid stored generation artifact")

/-- The row `complete` writes. -/
def GenerationJob.completed (j : GenerationJob) (now : Nat)
    (result : GenerationExecutionResult) : GenerationJob :=
  { j.unleased with
    status := .succeeded, completedAt := some now, updatedAt := now, errorCode := none
    reconciliationStatus := .notRequired
    providerRequestId := result.providerRequestId <|> j.providerRequestId
    providerTaskId := result.providerTaskId <|> j.providerTaskId }

/-- The usage record `complete` writes. -/
def usageRecordOf (jobId : Nat) (j : GenerationJob) (result : GenerationExecutionResult)
    (pricingVersion currency : String) (charge : Nat) : Billing.UsageRecord :=
  { tenantId := j.tenantId, actorUserId := j.actorUserId
    source := .generationJob jobId, modelDeploymentId := j.modelDeploymentId
    modality := j.modality.toString, modelKey := j.productModelId
    providerRequestId := orElse result.providerRequestId j.providerRequestId
    providerTaskId := orElse result.providerTaskId j.providerTaskId
    pricingVersion, currency, usage := result.usage, chargeAmountMinor := charge }

/-- `complete`: the artifacts, the usage and the terminal state in one
transaction. -/
def complete (book : Catalog.PriceBook) (now : Nat) (f : Fence)
    (result : GenerationExecutionResult) (s : Store) :
    Except GenerationError (GenerationRecord × Store) := do
  validateFence f
  let j ← orRaise (f.row now s fun _ => true) .notFound
  raiseIf (j.status ≠ .storing) .stateConflict
  let price ← orRaise (book j.acceptedPriceVersionId)
    (.infrastructure "GENERATION_PRICE_SNAPSHOT_MISSING")
  let charge ← (Billing.chargeForUsage price result.usage).mapError .billing
  raiseIf (s.artifacts.rows.any (fun a =>
    a.tenantId == j.tenantId && a.generationJobId == f.jobId) = true) .stateConflict
  result.artifacts.forM validateArtifactInput
  raiseIf (s.billing.usageRecords.rows.any (fun u =>
    u.tenantId == j.tenantId && u.source == .generationJob f.jobId) = true)
    .stateConflict
  let label ← (Billing.pricingVersion price).mapError .billing
  raiseIf (providerIdTaken s (·.providerRequestId) f.jobId j result.providerRequestId
    = true) (.integrity "uq_generation_jobs_provider_request")
  raiseIf (providerIdTaken s (·.providerTaskId) f.jobId j result.providerTaskId = true)
    (.integrity "uq_generation_jobs_provider_task")
  let row := j.completed now result
  let usage := usageRecordOf f.jobId j result label price.currency charge.amountMinor
  let artifacts := result.artifacts.map fun item =>
    { tenantId := j.tenantId, generationJobId := f.jobId, kind := item.kind
      status := ArtifactStatus.ready, stored := item.stored }
  return (⟨f.jobId, row⟩,
    { s.setJob f.jobId row with
      artifacts := artifacts.foldl Table.insert s.artifacts
      billing := { s.billing with
        usageRecords := s.billing.usageRecords.insert usage } })

end Mosaic.Generation
