/-
The durable generation worker as a process
(`DurableGenerationWorker._execute_claimed`, app/generations/worker.py).

# Steps

The worker holds no transaction across its awaits. A `Worker` is one
execution with its program counter; `workerStep` performs the one call
the counter stands at, and other parties run between any two steps. A
crash, or a cancelled task, is a process that takes no further step.

# The local job

`record` is the worker's own variable `job`: the row as its last
transition returned it. Every decision of the exception branch is made
on `record.job.status`, which the durable row may have left behind.

# Failure

A database call can commit, be rolled back, or commit without the worker
learning of it; the provider can answer anything; a lease guard can
interrupt every await inside `execute`.
-/
import Mosaic.Generation.Execution
import Mosaic.Lib.Db

namespace Mosaic.Generation

open Lib Providers

-- ========================================================= environment

/-- The answer of the permit semaphore: a permit, a refusal (saturated or
unreachable), or any other exception. -/
inductive Admission
  | granted
  | refused
  | error
deriving Repr, DecidableEq

/-- What one step leaves to the environment. -/
structure Env where
  elapsed : Nat
  db : DbOutcome
  /-- `none`: the resolver raises. -/
  ports : Option ProviderPorts
  admission : Admission
  answers : Answers
  poll : Exchange VideoTaskResponse
  storage : Nat → Option StoredArtifact
  /-- A lease guard cancels the provider operation. -/
  interrupted : Bool

/-- What a deployment fixes. -/
structure Config where
  book : Catalog.PriceBook
  heartbeatSeconds : Nat
  videoTimeout : Nat
  asset : String → Option String

-- =============================================================== billing

/-- A billing call in a session of its own. -/
def billingCall {α : Type} (s : Store) (x : Except Billing.BillingError (α × Billing.Db)) :
    Except GenerationError (Unit × Store) :=
  (x.map fun y => ((), { s with billing := y.2 })).mapError .billing

/-- `SqlAlchemyGenerationBilling.release`. -/
def releaseHold (now tenantId reservationId : Nat) (s : Store) :
    Except GenerationError (Unit × Store) :=
  billingCall s (Billing.release now .none tenantId reservationId s.billing)

/-- `SqlAlchemyGenerationBilling.capture`. -/
def captureHold (book : Catalog.PriceBook) (now tenantId reservationId : Nat)
    (usage : Option Billing.BillingUsage) (s : Store) :
    Except GenerationError (Unit × Store) :=
  billingCall s (Billing.capture now .none (s.sources book)
    { tenantId, reservationId, usage } s.billing)

-- ============================================================= process

inductive WorkerPc
  | begin
  | toQueued
  | beforeProvider
  | admission
  | requeue
  | toSubmitted (ports : ProviderPorts)
  | execute (ports : ProviderPorts)
  | recordTask (taskId : String) (durationSeconds : Int)
  | poll (taskId : String) (durationSeconds : Int) (deadline : Nat)
  | recordRequest (d : Delivery)
  | store (d : Delivery)
  | afterProvider (result : GenerationExecutionResult)
  | toRunning (result : GenerationExecutionResult)
  | toStoring (result : GenerationExecutionResult)
  | beforeCapture (result : GenerationExecutionResult)
  | complete (result : GenerationExecutionResult)
  | capture (result : GenerationExecutionResult)
  /-- `_fail`, and then the release if there is to be one. -/
  | failing (errorCode : String) (release : Bool)
  /-- `_release_quietly`. -/
  | releasing
  | ended

/-- One execution of the worker. -/
structure Worker where
  record : GenerationRecord
  workerId : String
  clock : Nat
  pc : WorkerPc

namespace Worker

/-- The local `job.status`. -/
def status (p : Worker) : GenerationStatus := p.record.job.status

/-- The `except Exception` branch. -/
def raise (p : Worker) (e : ExecuteError) : Worker :=
  let submittedUnknown := p.status == .submitted && submissionIsUncertain e
  let release := p.record.job.billingReservationId.isSome && !submittedUnknown
    && p.status != .succeeded
  if submittedUnknown = true then
    { p with pc := .failing "GENERATION_SUBMITTED_UNKNOWN" false }
  else if p.status.inProgress = true then
    { p with pc := .failing "GENERATION_EXECUTION_FAILED" release }
  else { p with pc := if release then .releasing else .ended }

/-- The fence of the local job. -/
def fence (p : Worker) : Except GenerationError Fence := do
  let (leaseToken, fencingToken) ← requireJobFence p.record
  return { tenantId := p.record.job.tenantId, jobId := p.record.jobId, leaseToken
           fencingToken }

/-- `_transition` from the local status. -/
def transition (p : Worker) (now : Nat) (target : GenerationStatus)
    (v : TransitionValues) (s : Store) :
    Except GenerationError (GenerationRecord × Store) := do
  let f ← p.fence
  Generation.transition now f p.status target v s

/-- `heartbeat.ensure_live`; the local job stays as it is. -/
def heartbeat (p : Worker) (now leaseSeconds : Nat) (s : Store) :
    Except GenerationError (GenerationRecord × Store) := do
  let f ← p.fence
  let (_, s) ← ensureLive now f p.workerId leaseSeconds s
  return (p.record, s)

/-- `_complete`. -/
def complete (p : Worker) (book : Catalog.PriceBook) (now : Nat)
    (result : GenerationExecutionResult) (s : Store) :
    Except GenerationError (GenerationRecord × Store) := do
  let f ← p.fence
  Generation.complete book now f result s

/-- The transition of `_fail`. -/
def fail (p : Worker) (now : Nat) (errorCode : String) (s : Store) :
    Except GenerationError (GenerationRecord × Store) :=
  p.transition now
    (if errorCode = "GENERATION_SUBMITTED_UNKNOWN" then .submittedUnknown else .failed)
    { errorCode := some errorCode } s

/-- A database call of the `try` block: its record and the next counter,
or the exception branch. -/
def advance (p : Worker) (db : DbOutcome) (next : WorkerPc) (s : Store)
    (call : Except GenerationError (GenerationRecord × Store)) : Worker × Store :=
  match attempt db s call with
  | (none, s) => (p.raise .other, s)
  | (some record, s) => ({ p with record, pc := next }, s)

/-- The recording of a provider id, whose exceptions are renamed. -/
def recording (p : Worker) (db : DbOutcome) (next : WorkerPc) (s : Store)
    (call : Fence → Except GenerationError (Unit × Store)) : Worker × Store :=
  match attempt db s (p.fence >>= call) with
  | (none, s) =>
      (p.raise (.infrastructure "GENERATION_SUBMISSION_PERSISTENCE_UNKNOWN"), s)
  | (some _, s) => ({ p with pc := next }, s)

end Worker

/-- The process a successful claim starts. -/
def Worker.start (now : Nat) (workerId : String) (record : GenerationRecord) : Worker :=
  { record, workerId, clock := now, pc := .begin }

-- ================================================================ step

section

variable (cfg : Config)

/-- What follows a provider call that was answered. -/
def Worker.submitted (p : Worker) : Submission → Worker
  | .delivered d => { p with pc := .recordRequest d }
  | .task taskId durationSeconds => { p with pc := .recordTask taskId durationSeconds }

/-- `executor.execute` up to the end of its provider call. -/
def executeStep (env : Env) (p : Worker) (ports : ProviderPorts) : Worker :=
  if env.interrupted = true then p.raise .other
  else match providerCall ports p.record.execution >>= submit cfg.asset env.answers with
    | .error e => p.raise e
    | .ok outcome => p.submitted outcome

/-- One round of `wait_for_video`. -/
def pollStep (env : Env) (p : Worker) (taskId : String) (durationSeconds : Int)
    (deadline : Nat) : Worker :=
  if env.interrupted = true then p.raise .other
  else match pollVideo cfg.asset taskId durationSeconds (deadline ≤ p.clock) env.poll with
    | .error e => p.raise e
    | .ok none => p
    | .ok (some d) => { p with pc := .recordRequest d }

/-- The transfer of the artifacts, and the result. -/
def storeStep (env : Env) (p : Worker) (d : Delivery) : Worker :=
  if env.interrupted = true then p.raise .other
  else match d.store env.storage >>= d.result with
    | .error e => p.raise e
    | .ok result => { p with pc := .afterProvider result }

/-- The branch on a claimed job, before the `try`. -/
def beginStep (p : Worker) : Worker :=
  if p.status ≠ .reserved then { p with pc := .ended }
  else match requireJobFence p.record with
    | .error _ => { p with pc := .ended }
    | .ok _ =>
        if p.record.job.billingReservationId = none then
          { p with pc := .failing "GENERATION_BILLING_RESERVATION_MISSING" false }
        else { p with pc := .toQueued }

/-- Provider resolution and admission. -/
def admitStep (env : Env) (p : Worker) : Worker :=
  match env.ports, env.admission with
  | none, _ => p.raise .other
  | some _, .error => p.raise .other
  | some _, .refused => { p with pc := .requeue }
  | some ports, .granted => { p with pc := .toSubmitted ports }

/-- One step of `_execute_claimed`. -/
def workerStep (env : Env) (p : Worker) (s : Store) : Worker × Store :=
  let now := p.clock + env.elapsed
  let p := { p with clock := now }
  match p.pc with
  | .begin => (beginStep p, s)
  | .toQueued => p.advance env.db .beforeProvider s (p.transition now .queued {} s)
  | .beforeProvider =>
      p.advance env.db .admission s (p.heartbeat now cfg.heartbeatSeconds s)
  | .admission => (admitStep env p, s)
  | .requeue =>
      -- the retry signal leaves the worker once the job is back in `accepted`
      p.advance env.db .ended s (p.transition now .accepted {} s)
  | .toSubmitted ports =>
      p.advance env.db (.execute ports) s (p.transition now .submitted {} s)
  | .execute ports => (executeStep cfg env p ports, s)
  | .recordTask taskId durationSeconds =>
      if env.interrupted = true then (p.raise .other, s)
      else p.recording env.db (.poll taskId durationSeconds (now + cfg.videoTimeout)) s
        fun f => recordProviderTask now f taskId s
  | .poll taskId durationSeconds deadline =>
      (pollStep cfg env p taskId durationSeconds deadline, s)
  | .recordRequest d =>
      if env.interrupted = true then (p.raise .other, s)
      else match d.requestId with
        | none => ({ p with pc := .store d }, s)
        | some requestId => p.recording env.db (.store d) s
            fun f => recordProviderRequest now f requestId s
  | .store d => (storeStep env p d, s)
  | .afterProvider result =>
      p.advance env.db (.toRunning result) s (p.heartbeat now cfg.heartbeatSeconds s)
  | .toRunning result =>
      p.advance env.db (.toStoring result) s (p.transition now .running
        { providerRequestId := result.providerRequestId
          providerTaskId := result.providerTaskId } s)
  | .toStoring result =>
      p.advance env.db (.beforeCapture result) s (p.transition now .storing {} s)
  | .beforeCapture result =>
      p.advance env.db (.complete result) s (p.heartbeat now cfg.heartbeatSeconds s)
  | .complete result =>
      p.advance env.db (.capture result) s (p.complete cfg.book now result s)
  | .capture result =>
      match p.record.job.billingReservationId with
      | none => ({ p with pc := .ended }, s)
      | some reservationId =>
          let (_, s) := attempt env.db s (captureHold cfg.book now
            p.record.job.tenantId reservationId (some result.usage) s)
          -- the job has succeeded: an exception of the capture only leaves
          ({ p with pc := .ended }, s)
  | .failing errorCode release =>
      let (_, s) := attempt env.db s (p.fail now errorCode s)
      ({ p with pc := if release then .releasing else .ended }, s)
  | .releasing =>
      match p.record.job.billingReservationId with
      | none => ({ p with pc := .ended }, s)
      | some reservationId =>
          let (_, s) := attempt env.db s
            (releaseHold now p.record.job.tenantId reservationId s)
          ({ p with pc := .ended }, s)
  | .ended => (p, s)

end

end Mosaic.Generation
