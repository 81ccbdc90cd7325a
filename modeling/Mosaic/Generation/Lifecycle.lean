/-
The writers of a job that hold no lease: the user's cancel
(lifecycle.py), the stall sweep and the billing reconciler's queries
(worker.py), and the transactions of an operator resolution
(recovery.py).

`resolve_failed` and `reconcile_once` are not atomic: they are sequences
of the transactions below with billing calls in between, and the system
model interleaves them.
-/
import Mosaic.Generation.Repository

namespace Mosaic.Generation

open Lib

-- =============================================================== cancel

/-- `cancel_accepted`. -/
def cancelAccepted (now tenantId actorUserId jobId : Nat) (s : Store) :
    Except GenerationError (Unit × Store) := do
  let j ← orRaise ((s.jobs.get jobId).filter fun j =>
    j.tenantId == tenantId && j.actorUserId == some actorUserId) .notFound
  if j.status = .cancelled then return ((), s)
  else do
    raiseIf (j.status ≠ .accepted) .stateConflict
    let row := { j with
      status := .cancelled, completedAt := some now, updatedAt := now
      errorCode := none, reconciliationStatus := .notRequired }
    return ((), { s.setJob jobId row with
      audit := s.audit.insert
        { tenantId, actorUserId := some actorUserId, action := "generation.cancel"
          resourceId := jobId, payload := [("phase", "accepted")] } })

-- ========================================================== stall sweep

/-- The row the sweep writes: a job that never reached the provider
fails, any other becomes `submitted_unknown`. -/
def GenerationJob.stalled (j : GenerationJob) (now : Nat) : GenerationJob :=
  if j.status = .reserved ∨ j.status = .queued then
    { j.unleased with
      status := .failed, errorCode := some "GENERATION_WORKER_STALLED"
      completedAt := some now, updatedAt := now
      reconciliationStatus := .notRequired }
  else
    { j.unleased with
      status := .submittedUnknown
      errorCode := some "GENERATION_RECONCILIATION_REQUIRED", updatedAt := now
      reconciliationStatus := .pending }

/-- The rows of the sweep. -/
def stalledJobs (now limit : Nat) (locked : Nat → Bool) (s : Store) :
    List (Nat × GenerationJob) :=
  (s.jobs.ordered
    (fun a b => a.2.updatedAt < b.2.updatedAt
      || (a.2.updatedAt == b.2.updatedAt && a.1 ≤ b.1))
    fun e => e.2.status.inProgress && e.2.leaseExpiresAt.any (· ≤ now)
      && !locked e.1).take limit

/-- `reconcile_stalled_once`. -/
def reconcileStalledOnce (now staleSeconds limit : Nat) (locked : Nat → Bool)
    (s : Store) : Except GenerationError (Nat × Store) := do
  raiseIf (staleSeconds < 60 ∨ ¬(1 ≤ limit ∧ limit ≤ 500))
    (.value "invalid generation reconciliation bounds")
  let jobs := stalledJobs now limit locked s
  return (jobs.length, jobs.foldl (fun s e => s.setJob e.1 (e.2.stalled now)) s)

-- ==================================================== operator resolution

/-- `" ".join(value.split())`. -/
def collapseSpace (value : String) : String :=
  String.ofList (List.intercalate [' ']
    ((value.toList.splitOnP PyStr.isSpace).filter (· ≠ [])))

/-- `_bounded_text`. -/
def boundedText (value label : String) (maximum : Nat) :
    Except GenerationError String := do
  let normalized := collapseSpace value
  raiseIf (normalized = "" ∨ PyStr.len normalized > maximum)
    (.value (label ++ " is invalid"))
  return normalized

/-- The row the first transaction of `resolve_failed` writes. -/
def GenerationJob.resolvedFailed (j : GenerationJob) (now : Nat) : GenerationJob :=
  { j.unleased with
    status := .failed, errorCode := some "GENERATION_OPERATOR_RESOLVED_FAILED"
    completedAt := some now, updatedAt := now, providerObservedStatus := some "FAILED"
    providerObservedAt := some now }

/-- The first transaction of `resolve_failed`: the reservation to release,
or nothing when the job was resolved before. -/
def resolveFailedRequest (now tenantId jobId : Nat) (subject reason : String)
    (s : Store) : Except GenerationError (Option Nat × Store) := do
  let j ← orRaise ((s.jobs.get jobId).filter fun j => j.tenantId == tenantId) .notFound
  if j.status = .submittedUnknown ∧ j.reconciliationStatus = .pending then do
    let reservationId ← orRaise j.billingReservationId
      (.infrastructure "GENERATION_BILLING_RESERVATION_MISSING")
    return (some reservationId, { s.setJob jobId (j.resolvedFailed now) with
      audit := s.audit.insert
        { tenantId, actorUserId := none
          action := "generation.reconciliation.failed_requested", resourceId := jobId
          payload := [("operator_subject", subject), ("reason", reason)] } })
  else if j.status = .failed ∧ j.reconciliationStatus = .pending
      ∧ j.providerObservedStatus = some "FAILED" then do
    let reservationId ← orRaise j.billingReservationId
      (.infrastructure "GENERATION_BILLING_RESERVATION_MISSING")
    return (some reservationId, s)
  else do
    raiseIf (¬(j.status = .failed ∧ j.reconciliationStatus = .resolved
      ∧ j.providerObservedStatus = some "FAILED"))
      (.infrastructure "GENERATION_RECONCILIATION_CONFLICT")
    return (none, s)

/-- Close the reconciliation of a job, with its audit row. -/
def closeReconciliation (now tenantId jobId : Nat) (j : GenerationJob)
    (payload : List (String × String)) (s : Store) : Store :=
  { s.setJob jobId { j with reconciliationStatus := .resolved, updatedAt := now } with
    audit := s.audit.insert
      { tenantId, actorUserId := none, action := "generation.reconciliation.resolved"
        resourceId := jobId, payload } }

/-- The last transaction of `resolve_failed`. -/
def resolveFailedFinish (now tenantId jobId : Nat) (subject : String) (s : Store) :
    Except GenerationError (Unit × Store) := do
  let j ← orRaise ((s.jobs.get jobId).filter fun j => j.tenantId == tenantId) .notFound
  if j.reconciliationStatus = .resolved then return ((), s)
  else do
    raiseIf (j.status ≠ .failed ∨ j.reconciliationStatus ≠ .pending)
      (.infrastructure "GENERATION_RECONCILIATION_CONFLICT")
    return ((), closeReconciliation now tenantId jobId j
      [("operator_subject", subject), ("outcome", "failed")] s)

-- =================================================== billing reconciler

/-- A row `reconcile_once` selects. -/
structure SettlementRow where
  tenantId : Nat
  reservationId : Nat
  jobId : Nat
  status : GenerationStatus
  reconciliationStatus : ReconciliationStatus
  usageId : Option Nat
deriving Repr, DecidableEq

/-- The join of one reservation with its job and its usage record. -/
def settlementRow (s : Store) (e : Nat × Billing.BalanceReservation) :
    Option SettlementRow :=
  if e.2.sourceType = "generation" ∧ e.2.status = .pending then do
    let j ← (s.jobs.get e.2.sourceId).filter fun j =>
      j.tenantId == e.2.tenantId && j.status.isTerminal
    return { tenantId := e.2.tenantId, reservationId := e.1, jobId := e.2.sourceId
             status := j.status, reconciliationStatus := j.reconciliationStatus
             usageId := (s.billing.usageRecords.find fun u => u.tenantId == j.tenantId
               && u.source == .generationJob e.2.sourceId).map (·.1) }
  else none

/-- The snapshot of `reconcile_once`, oldest reservation first. -/
def settlementRows (limit : Nat) (s : Store) : List SettlementRow :=
  (s.billing.reservations.entries.filterMap (settlementRow s)).take limit

/-- `_mark_reconciliation_resolved`. -/
def markReconciliationResolved (now tenantId jobId : Nat) (s : Store) : Store :=
  match (s.jobs.get jobId).filter fun j =>
      j.tenantId == tenantId && j.reconciliationStatus == .pending with
  | none => s
  | some j => closeReconciliation now tenantId jobId j
      [("operator_subject", "system:generation-billing-reconciler")] s

end Mosaic.Generation
