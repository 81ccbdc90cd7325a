/-
The other processes over generation jobs: the operator resolution and
the video recovery (app/generations/recovery.py), and one pass of the
billing reconciler (`SqlAlchemyGenerationBilling.reconcile_once`,
worker.py).

Like the worker, each is a sequence of short transactions with a program
counter. `resolve_failed` is run by an operator and by the recovery
worker alike, so its counter is a type of its own (`ResolvePc`).
-/
import Mosaic.Generation.Lifecycle
import Mosaic.Generation.Worker

namespace Mosaic.Generation

open Lib Providers

-- ======================================================= resolve_failed

inductive ResolvePc
  | request
  | release (reservationId : Nat)
  | finish
deriving Repr, DecidableEq

/-- What `resolve_failed` is called with, its texts normalised. -/
structure ResolveRequest where
  tenantId : Nat
  jobId : Nat
  subject : String
  reason : String
deriving Repr, DecidableEq

/-- One transaction of `resolve_failed`: `none` is an exception,
`some none` a return. -/
def resolveStep (db : DbOutcome) (now : Nat) (q : ResolveRequest) (pc : ResolvePc)
    (s : Store) : Option (Option ResolvePc) × Store :=
  match pc with
  | .request =>
      match attempt db s
          (resolveFailedRequest now q.tenantId q.jobId q.subject q.reason s) with
      | (none, s) => (none, s)
      | (some none, s) => (some none, s)
      | (some (some reservationId), s) => (some (some (.release reservationId)), s)
  | .release reservationId =>
      match attempt db s (releaseHold now q.tenantId reservationId s) with
      | (none, s) => (none, s)
      | (some _, s) => (some (some .finish), s)
  | .finish =>
      match attempt db s (resolveFailedFinish now q.tenantId q.jobId q.subject s) with
      | (none, s) => (none, s)
      | (some _, s) => (some none, s)

/-- An operator's call of `resolve_failed`; `none` once it is over. -/
structure Operator where
  request : ResolveRequest
  clock : Nat
  pc : Option ResolvePc

def operatorStep (env : Env) (p : Operator) (s : Store) : Operator × Store :=
  let now := p.clock + env.elapsed
  match p.pc with
  | none => ({ p with clock := now }, s)
  | some pc =>
      let (outcome, s) := resolveStep env.db now p.request pc s
      ({ p with clock := now, pc := outcome.join }, s)

-- ======================================================== video recovery

inductive RecoveryPc
  | recover
  | resolve (pc : ResolvePc)
  /-- `release_reconciliation_claim` of a task that is not over. -/
  | giveBack
  | toRunning (result : GenerationExecutionResult)
  | toStoring (result : GenerationExecutionResult)
  | complete (result : GenerationExecutionResult)
  | capture
  /-- `release_reconciliation_claim` of the exception branch. -/
  | unclaim
  | ended

/-- One `GenerationVideoRecoveryWorker.run_once` that got a claim. `fence`
is `_job_fence` of the claimed record. -/
structure Recovery where
  record : GenerationRecord
  fence : Fence
  clock : Nat
  pc : RecoveryPc

/-- The process a successful claim starts, if its record has a fence. -/
def Recovery.start (now : Nat) (record : GenerationRecord) : Option Recovery :=
  match requireJobFence record with
  | .error _ => none
  | .ok (leaseToken, fencingToken) =>
      some { record, clock := now, pc := .recover
             fence := { tenantId := record.job.tenantId, jobId := record.jobId
                        leaseToken, fencingToken } }

/-- A call whose exception leads to the exception branch. -/
def Recovery.advance (p : Recovery) (db : DbOutcome) (next : RecoveryPc) (s : Store)
    (call : Except GenerationError (GenerationRecord × Store)) : Recovery × Store :=
  match attempt db s call with
  | (none, s) => ({ p with pc := .unclaim }, s)
  | (some record, s) => ({ p with record, pc := next }, s)

/-- How the recovery worker calls `resolve_failed`. -/
def Recovery.resolution (p : Recovery) : ResolveRequest :=
  { tenantId := p.record.job.tenantId, jobId := p.record.jobId
    subject := "system:generation-video-reconciler"
    reason := "provider reported a definitive failed or cancelled task" }

section

variable (cfg : Config)

/-- Provider resolution and `recover_video`. -/
def recoverStep (env : Env) (p : Recovery) : Recovery :=
  match env.ports with
  | none => { p with pc := .unclaim }
  | some ports =>
      match recoverVideo cfg.asset ports.video p.record env.poll env.storage with
      | .error e => { p with pc := if e = taskFailed then .resolve .request else .unclaim }
      | .ok none => { p with pc := .giveBack }
      | .ok (some result) => { p with pc := .toRunning result }

/-- One step of `run_once`. -/
def recoveryStep (env : Env) (p : Recovery) (s : Store) : Recovery × Store :=
  let now := p.clock + env.elapsed
  let p := { p with clock := now }
  match p.pc with
  | .recover => (recoverStep cfg env p, s)
  | .resolve pc =>
      let (outcome, s) := resolveStep env.db now p.resolution pc s
      ({ p with pc := match outcome with
          | none => .unclaim
          | some none => .ended
          | some (some pc) => .resolve pc }, s)
  | .giveBack =>
      match attempt env.db s (releaseReconciliationClaim now p.fence s) with
      | (none, s) => ({ p with pc := .unclaim }, s)
      | (some _, s) => ({ p with pc := .ended }, s)
  | .toRunning result =>
      p.advance env.db (.toStoring result) s (transition now p.fence .submittedUnknown
        .running
        { providerRequestId := result.providerRequestId
          providerTaskId := result.providerTaskId
          providerObservedStatus := some "SUCCEEDED" } s)
  | .toStoring result =>
      p.advance env.db (.complete result) s (transition now p.fence .running .storing {} s)
  | .complete result =>
      p.advance env.db .capture s (complete cfg.book now p.fence result s)
  | .capture =>
      match p.record.job.billingReservationId with
      | none => ({ p with pc := .unclaim }, s)
      | some reservationId =>
          match attempt env.db s (captureHold cfg.book now p.record.job.tenantId
              reservationId none s) with
          | (none, s) => ({ p with pc := .unclaim }, s)
          | (some _, s) => ({ p with pc := .ended }, s)
  | .unclaim =>
      let (_, s) := attempt env.db s (releaseReconciliationClaim now p.fence s)
      ({ p with pc := .ended }, s)
  | .ended => (p, s)

-- =================================================== billing reconciler

inductive ReconcilerPc
  | next
  | releaseExpired (row : SettlementRow)
  | markResolved (row : SettlementRow)
  | ended

/-- One pass of `reconcile_once` over the rows it selected. -/
structure Reconciler where
  rows : List SettlementRow
  clock : Nat
  pc : ReconcilerPc

/-- After a release: a failed job that is still to be reconciled is
marked. -/
def Reconciler.released (p : Reconciler) (row : SettlementRow) : Reconciler :=
  if row.status = .failed ∧ row.reconciliationStatus = .pending then
    { p with pc := .markResolved row }
  else { p with pc := .next }

/-- A release of the pass; an exception ends the pass. -/
def Reconciler.release (p : Reconciler) (db : DbOutcome) (row : SettlementRow)
    (s : Store) : Reconciler × Store :=
  match attempt db s (releaseHold p.clock row.tenantId row.reservationId s) with
  | (none, s) => ({ p with pc := .ended }, s)
  | (some _, s) => (p.released row, s)

/-- A `BillingConflict` with the code `RESERVATION_EXPIRED`. -/
def GenerationError.isReservationExpired : GenerationError → Bool
  | .billing (.conflict code _) => code == Billing.RESERVATION_EXPIRED
  | _ => false

/-- The capture of a succeeded row. -/
def Reconciler.capture (p : Reconciler) (db : DbOutcome) (row : SettlementRow)
    (s : Store) : Reconciler × Store :=
  match captureHold cfg.book p.clock row.tenantId row.reservationId none s with
  | .error e =>
      if e.isReservationExpired = true then
        ({ p with pc := .releaseExpired row }, s)
      else ({ p with pc := .ended }, s)
  | .ok x =>
      match attempt db s (.ok x : Except GenerationError (Unit × Store)) with
      | (none, s) => ({ p with pc := .ended }, s)
      | (some _, s) => ({ p with pc := .next }, s)

/-- One step of the pass. -/
def reconcilerStep (env : Env) (p : Reconciler) (s : Store) : Reconciler × Store :=
  let p := { p with clock := p.clock + env.elapsed }
  match p.pc with
  | .next =>
      match p.rows with
      | [] => ({ p with pc := .ended }, s)
      | row :: rows =>
          let p := { p with rows }
          if row.status = .succeeded then
            if row.usageId = none then (p, s) else p.capture cfg env.db row s
          else p.release env.db row s
  | .releaseExpired row => p.release env.db row s
  | .markResolved row =>
      match attempt env.db s (.ok ((), markReconciliationResolved p.clock row.tenantId
          row.jobId s) : Except GenerationError (Unit × Store)) with
      | (none, s) => ({ p with pc := .ended }, s)
      | (some _, s) => ({ p with pc := .next }, s)
  | .ended => (p, s)

end

end Mosaic.Generation
