/-
What every operation keeps, the system keeps.

`OpsKeep P` says of each transaction of the repository, acceptance and
completion apart, that it leaves `P` true; those two bring in something
from outside (a request, the result of an execution), so what is known of
it is a hypothesis where they are called. From there on nothing depends on
`P`: a database call may commit or not (`attempt_keeps`), a step of a
process is one such call or none, and an act is a call or a step
(`worldStep_keeps`).
-/
import Mosaic.Generation.World

namespace Mosaic.Generation

open Lib

variable {P : Store → Prop} {s s' : Store} {α : Type} {cfg : Config} {env : Env}

-- ============================================================ operations

/-- A call that goes through leaves `P` true. -/
def Keeps {α : Type} (P : Store → Prop) (s : Store)
    (x : Except GenerationError (α × Store)) : Prop :=
  P s → ∀ a s', x = .ok (a, s') → P s'

/-- Every transaction of the repository keeps `P`. -/
structure OpsKeep (P : Store → Prop) : Prop where
  transition : ∀ s now f expected target v, Keeps P s (transition now f expected target v s)
  ensureLive : ∀ s now f workerId leaseSeconds,
    Keeps P s (ensureLive now f workerId leaseSeconds s)
  recordProviderTask : ∀ s now f taskId, Keeps P s (recordProviderTask now f taskId s)
  recordProviderRequest : ∀ s now f requestId,
    Keeps P s (recordProviderRequest now f requestId s)
  releaseReconciliationClaim : ∀ s now f, Keeps P s (releaseReconciliationClaim now f s)
  claimAccepted : ∀ s now locked tenantId jobId workerId leaseSeconds,
    Keeps P s (claimAccepted now locked tenantId jobId workerId leaseSeconds s)
  claimNextAccepted : ∀ s now locked tenantId modalities workerId leaseSeconds,
    Keeps P s (claimNextAccepted now locked tenantId modalities workerId leaseSeconds s)
  claimPendingReconciliation : ∀ s now locked workerId leaseSeconds,
    Keeps P s (claimPendingReconciliation now locked workerId leaseSeconds s)
  cancelAccepted : ∀ s now tenantId actorUserId jobId,
    Keeps P s (cancelAccepted now tenantId actorUserId jobId s)
  reconcileStalledOnce : ∀ s now staleSeconds limit locked,
    Keeps P s (reconcileStalledOnce now staleSeconds limit locked s)
  resolveFailedRequest : ∀ s now tenantId jobId subject reason,
    Keeps P s (resolveFailedRequest now tenantId jobId subject reason s)
  resolveFailedFinish : ∀ s now tenantId jobId subject,
    Keeps P s (resolveFailedFinish now tenantId jobId subject s)
  markReconciliationResolved : ∀ s now tenantId jobId,
    P s → P (markReconciliationResolved now tenantId jobId s)
  billing : ∀ s billing, P s → P { s with billing }

theorem OpsKeep.billingCall (ops : OpsKeep P) {β : Type}
    {x : Except Billing.BillingError (β × Billing.Db)} : Keeps P s (billingCall s x) := by
  intro h u s' hok
  simp only [Generation.billingCall, mapError_eq_ok] at hok
  cases x with
  | error e => cases hok
  | ok y =>
      obtain ⟨-, rfl⟩ := Prod.mk.inj (Except.ok.inj hok)
      exact ops.billing s y.2 h

-- ============================================================== database

theorem attempt_keeps {db : DbOutcome} {x : Except GenerationError (α × Store)}
    (hx : Keeps P s x) (h : P s) : P (attempt db s x).2 := by
  rcases attempt_store (rfl : (attempt db s x).2 = _) with hs | ⟨a, ha⟩
  · rw [hs]
    exact h
  · exact hx h a _ ha

/-- The same, of a call whose outcome is looked at. -/
theorem keeps_of_attempt {db : DbOutcome} {o : Option α}
    {x : Except GenerationError (α × Store)} (heq : attempt db s x = (o, s'))
    (hx : Keeps P s x) (h : P s) : P s' := by
  have hstore : P (attempt db s x).2 := attempt_keeps hx h
  rw [heq] at hstore
  exact hstore

-- =============================================================== workers

/-- A worker's call behind its fence. -/
theorem fenced_keeps {p : Worker} {call : Fence → Except GenerationError (α × Store)}
    (hcall : ∀ f, p.fence = .ok f → Keeps P s (call f)) : Keeps P s (p.fence >>= call) := by
  intro h a s' hok
  obtain ⟨f, hf, hok⟩ := bind_eq_ok.mp hok
  exact hcall f hf h a s' hok

theorem Worker.transition_keeps (ops : OpsKeep P) {p : Worker} {now : Nat}
    {target : GenerationStatus} {v : TransitionValues} :
    Keeps P s (p.transition now target v s) :=
  fenced_keeps fun f _ => ops.transition s now f p.status target v

theorem Worker.heartbeat_keeps (ops : OpsKeep P) {p : Worker} {now leaseSeconds : Nat} :
    Keeps P s (p.heartbeat now leaseSeconds s) := by
  refine fenced_keeps fun f _ h r s' hok => ?_
  simp only [bind_eq_ok, pure_eq_ok, Prod.exists, Prod.mk.injEq] at hok
  obtain ⟨u, s'', hlive, -, rfl⟩ := hok
  exact ops.ensureLive s now f p.workerId leaseSeconds h u s'' hlive

theorem Worker.advance_keeps {p : Worker} {db : DbOutcome} {next : WorkerPc}
    {call : Except GenerationError (GenerationRecord × Store)} (hcall : Keeps P s call)
    (h : P s) : P (p.advance db next s call).2 := by
  unfold Worker.advance
  split
  · next heq => exact keeps_of_attempt heq hcall h
  · next heq => exact keeps_of_attempt heq hcall h

theorem Worker.recording_keeps {p : Worker} {db : DbOutcome} {next : WorkerPc}
    {call : Fence → Except GenerationError (Unit × Store)} (hcall : ∀ f, Keeps P s (call f))
    (h : P s) : P (p.recording db next s call).2 := by
  unfold Worker.recording
  split
  · next heq => exact keeps_of_attempt heq (fenced_keeps fun f _ => hcall f) h
  · next heq => exact keeps_of_attempt heq (fenced_keeps fun f _ => hcall f) h

theorem workerStep_keeps (ops : OpsKeep P) {p : Worker}
    (hcomplete : ∀ result f, p.pc = .complete result → p.fence = .ok f →
      Keeps P s (complete cfg.book (p.clock + env.elapsed) f result s)) (h : P s) :
    P (workerStep cfg env p s).2 := by
  obtain ⟨record, workerId, clock, pc⟩ := p
  cases pc with
  | begin => exact h
  | toQueued => exact Worker.advance_keeps (Worker.transition_keeps ops) h
  | beforeProvider => exact Worker.advance_keeps (Worker.heartbeat_keeps ops) h
  | admission => exact h
  | requeue => exact Worker.advance_keeps (Worker.transition_keeps ops) h
  | toSubmitted ports => exact Worker.advance_keeps (Worker.transition_keeps ops) h
  | execute ports => exact h
  | recordTask taskId durationSeconds =>
      dsimp only [workerStep]
      split
      · exact h
      · exact Worker.recording_keeps (fun f => ops.recordProviderTask s _ f taskId) h
  | poll taskId durationSeconds deadline => exact h
  | recordRequest d =>
      dsimp only [workerStep]
      split
      · exact h
      · split
        · exact h
        · next requestId _ =>
            exact Worker.recording_keeps
              (fun f => ops.recordProviderRequest s _ f requestId) h
  | store d => exact h
  | afterProvider result => exact Worker.advance_keeps (Worker.heartbeat_keeps ops) h
  | toRunning result => exact Worker.advance_keeps (Worker.transition_keeps ops) h
  | toStoring result => exact Worker.advance_keeps (Worker.transition_keeps ops) h
  | beforeCapture result => exact Worker.advance_keeps (Worker.heartbeat_keeps ops) h
  | complete result =>
      exact Worker.advance_keeps (fenced_keeps fun f hf => hcomplete result f rfl hf) h
  | capture result =>
      dsimp only [workerStep]
      split
      · exact h
      · exact attempt_keeps ops.billingCall h
  | failing errorCode release => exact attempt_keeps (Worker.transition_keeps ops) h
  | releasing =>
      dsimp only [workerStep]
      split
      · exact h
      · exact attempt_keeps ops.billingCall h
  | ended => exact h

-- ======================================================= other processes

theorem resolveStep_keeps (ops : OpsKeep P) (db : DbOutcome) (now : Nat) (q : ResolveRequest)
    (pc : ResolvePc) (h : P s) : P (resolveStep db now q pc s).2 := by
  cases pc with
  | request =>
      have hop := ops.resolveFailedRequest s now q.tenantId q.jobId q.subject q.reason
      unfold resolveStep
      dsimp only
      split
      · next heq => exact keeps_of_attempt heq hop h
      · next heq => exact keeps_of_attempt heq hop h
      · next heq => exact keeps_of_attempt heq hop h
  | release reservationId =>
      unfold resolveStep
      dsimp only
      split
      · next heq => exact keeps_of_attempt heq ops.billingCall h
      · next heq => exact keeps_of_attempt heq ops.billingCall h
  | finish =>
      have hop := ops.resolveFailedFinish s now q.tenantId q.jobId q.subject
      unfold resolveStep
      dsimp only
      split
      · next heq => exact keeps_of_attempt heq hop h
      · next heq => exact keeps_of_attempt heq hop h

theorem operatorStep_keeps (ops : OpsKeep P) (p : Operator) (h : P s) :
    P (operatorStep env p s).2 := by
  unfold operatorStep
  dsimp only
  split
  · exact h
  · exact resolveStep_keeps ops _ _ _ _ h

theorem Recovery.advance_keeps {p : Recovery} {db : DbOutcome} {next : RecoveryPc}
    {call : Except GenerationError (GenerationRecord × Store)} (hcall : Keeps P s call)
    (h : P s) : P (p.advance db next s call).2 := by
  unfold Recovery.advance
  split
  · next heq => exact keeps_of_attempt heq hcall h
  · next heq => exact keeps_of_attempt heq hcall h

theorem recoveryStep_keeps (ops : OpsKeep P) {p : Recovery}
    (hcomplete : ∀ result, p.pc = .complete result →
      Keeps P s (complete cfg.book (p.clock + env.elapsed) p.fence result s)) (h : P s) :
    P (recoveryStep cfg env p s).2 := by
  obtain ⟨record, fence, clock, pc⟩ := p
  have hrelease := ops.releaseReconciliationClaim s (clock + env.elapsed) fence
  cases pc with
  | recover => exact h
  | resolve pc => exact resolveStep_keeps ops _ _ _ _ h
  | giveBack =>
      dsimp only [recoveryStep]
      split
      · next heq => exact keeps_of_attempt heq hrelease h
      · next heq => exact keeps_of_attempt heq hrelease h
  | toRunning result => exact Recovery.advance_keeps (ops.transition s _ _ _ _ _) h
  | toStoring result => exact Recovery.advance_keeps (ops.transition s _ _ _ _ _) h
  | complete result => exact Recovery.advance_keeps (hcomplete result rfl) h
  | capture =>
      dsimp only [recoveryStep]
      split
      · exact h
      · split
        · next heq => exact keeps_of_attempt heq ops.billingCall h
        · next heq => exact keeps_of_attempt heq ops.billingCall h
  | unclaim => exact attempt_keeps hrelease h
  | ended => exact h

theorem Reconciler.release_keeps (ops : OpsKeep P) (p : Reconciler) (db : DbOutcome)
    (row : SettlementRow) (h : P s) : P (p.release db row s).2 := by
  unfold Reconciler.release
  split
  · next heq => exact keeps_of_attempt heq ops.billingCall h
  · next heq => exact keeps_of_attempt heq ops.billingCall h

theorem Reconciler.capture_keeps (ops : OpsKeep P) (p : Reconciler) (db : DbOutcome)
    (row : SettlementRow) (h : P s) : P (p.capture cfg db row s).2 := by
  unfold Reconciler.capture
  split
  · split
    · exact h
    · exact h
  · next x hx =>
      have hkeeps : Keeps P s (.ok x : Except GenerationError (Unit × Store)) := by
        rw [← hx]
        exact ops.billingCall
      split
      · next heq => exact keeps_of_attempt heq hkeeps h
      · next heq => exact keeps_of_attempt heq hkeeps h

theorem reconcilerStep_keeps (ops : OpsKeep P) (p : Reconciler) (h : P s) :
    P (reconcilerStep cfg env p s).2 := by
  unfold reconcilerStep
  dsimp only
  split
  · split
    · exact h
    · split
      · split
        · exact h
        · exact Reconciler.capture_keeps ops _ _ _ h
      · exact Reconciler.release_keeps ops _ _ _ h
  · exact Reconciler.release_keeps ops _ _ _ h
  · next row _ =>
      have hkeeps : ∀ t, Keeps P s (.ok ((), markReconciliationResolved t row.tenantId
          row.jobId s) : Except GenerationError (Unit × Store)) := by
        intro t h u s' hok
        obtain ⟨-, rfl⟩ := Prod.mk.inj (Except.ok.inj hok)
        exact ops.markReconciliationResolved s t row.tenantId row.jobId h
      split
      · next heq => exact keeps_of_attempt heq (hkeeps _) h
      · next heq => exact keeps_of_attempt heq (hkeeps _) h
  · exact h

-- ================================================================== acts

/-- The act completes a job, if its call goes through. -/
inductive Completes (w : World) : Act → Nat → Fence → GenerationExecutionResult → Prop
  | worker (pid : Nat) (env : Env) (p : Worker) (f : Fence)
      (result : GenerationExecutionResult) (hp : w.parties.get pid = some (.worker p))
      (hpc : p.pc = .complete result) (hf : p.fence = .ok f) :
      Completes w (.work pid env) (p.clock + env.elapsed) f result
  | recovery (pid : Nat) (env : Env) (p : Recovery) (result : GenerationExecutionResult)
      (hp : w.parties.get pid = some (.recovery p)) (hpc : p.pc = .complete result) :
      Completes w (.work pid env) (p.clock + env.elapsed) p.fence result

theorem call_keeps {w : World} {x : Except GenerationError (α × Store)}
    (hx : Keeps P w.store x) (h : P w.store) : P (w.call x).store := by
  cases x with
  | error e => exact h
  | ok y => exact hx h y.1 y.2 rfl

theorem claim_keeps {w : World} {db : DbOutcome}
    {x : Except GenerationError (Option GenerationRecord × Store)}
    {start : GenerationRecord → Option Party} (hx : Keeps P w.store x) (h : P w.store) :
    P (w.claim db x start).store := by
  unfold World.claim
  split
  · next heq =>
      have hs := keeps_of_attempt heq hx h
      split
      · exact hs
      · exact hs
  · next heq => exact keeps_of_attempt heq hx h

/-- An act keeps what the operations keep. -/
theorem worldStep_keeps (ops : OpsKeep P) {w : World} {a : Act}
    (haccept : ∀ now catalog tenantId actorUserId request requestHash,
      a = .accept now catalog tenantId actorUserId request requestHash →
      Keeps P w.store (accept now catalog cfg.book tenantId actorUserId request requestHash
        w.store))
    (hcomplete : ∀ now f result, Completes w a now f result →
      Keeps P w.store (complete cfg.book now f result w.store))
    (h : P w.store) : P (worldStep cfg w a).store := by
  cases a with
  | accept now catalog tenantId actorUserId request hash =>
      exact call_keeps (haccept _ _ _ _ _ _ rfl) h
  | cancel now tenantId actorUserId jobId => exact call_keeps (ops.cancelAccepted _ _ _ _ _) h
  | sweep now staleSeconds limit locked =>
      exact call_keeps (ops.reconcileStalledOnce _ _ _ _ _) h
  | claim now db locked tenantId jobId workerId leaseSeconds =>
      exact claim_keeps (ops.claimAccepted _ _ _ _ _ _ _) h
  | claimNext now db locked tenantId modalities workerId leaseSeconds =>
      exact claim_keeps (ops.claimNextAccepted _ _ _ _ _ _ _) h
  | recover now db locked workerId leaseSeconds =>
      exact claim_keeps (ops.claimPendingReconciliation _ _ _ _ _) h
  | resolve now tenantId jobId subject reason =>
      simp only [worldStep, World.resolve]
      split
      · exact h
      · exact h
  | reconcile now limit =>
      simp only [worldStep]
      split
      · exact h
      · exact h
  | renew pid now db =>
      simp only [worldStep]
      split
      · next p _ =>
          cases p with
          | worker p =>
              simp only [World.renew]
              split
              · exact attempt_keeps (Worker.heartbeat_keeps ops) h
              · exact h
          | recovery p => exact h
          | operator p => exact h
          | reconciler p => exact h
      · exact h
  | work pid env =>
      simp only [worldStep]
      split
      · next p hp =>
          cases p with
          | worker p =>
              exact workerStep_keeps ops (fun result f hpc hf =>
                hcomplete _ f result (.worker pid env p f result hp hpc hf)) h
          | recovery p =>
              exact recoveryStep_keeps ops (fun result hpc =>
                hcomplete _ _ result (.recovery pid env p result hp hpc)) h
          | operator p => exact operatorStep_keeps ops p h
          | reconciler p => exact reconcilerStep_keeps ops p h
      · exact h

end Mosaic.Generation
