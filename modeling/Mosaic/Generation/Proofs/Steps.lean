/-
What a step of a process over generation jobs does.

`WorkerMove` is the inversion of `workerStep`: the call the counter
stood at, with what is known when it went through, and where the counter
goes. The other processes make fewer calls; `resolveStep_cases`,
`recoveryStep_cases` and `reconcilerStep_cases` list them.

Every later argument about processes is a case analysis over these, and
none unfolds a step function again.
-/
import Mosaic.Billing.Proofs.Priced
import Mosaic.Generation.Proofs.Moves

namespace Mosaic.Generation

open Lib Providers

variable {cfg : Config} {env : Env} {s s' : Store}

-- ============================================================== workers

/-- The lease token the worker presents. -/
def Worker.token (p : Worker) : Option Nat := p.record.job.leaseToken

/-- The worker at the time of its step. -/
def Worker.tick (env : Env) (p : Worker) : Worker :=
  { p with clock := p.clock + env.elapsed }

/-- The local status at each counter of the `try` block. -/
def WorkerPc.local : WorkerPc → Option GenerationStatus
  | .toQueued => some .reserved
  | .beforeProvider => some .queued
  | .admission => some .queued
  | .requeue => some .queued
  | .toSubmitted _ => some .queued
  | .execute _ => some .submitted
  | .recordTask _ _ => some .submitted
  | .poll _ _ _ => some .submitted
  | .recordRequest _ => some .submitted
  | .store _ => some .submitted
  | .afterProvider _ => some .submitted
  | .toRunning _ => some .submitted
  | .toStoring _ => some .running
  | .beforeCapture _ => some .storing
  | .complete _ => some .storing
  | _ => none

/-- The counters of the transitions, with their targets and what follows. -/
inductive Turns : WorkerPc → GenerationStatus → WorkerPc → Prop
  | toQueued : Turns .toQueued .queued .beforeProvider
  | requeue : Turns .requeue .accepted .ended
  | toSubmitted (ports : ProviderPorts) : Turns (.toSubmitted ports) .submitted (.execute ports)
  | toRunning (result : GenerationExecutionResult) :
      Turns (.toRunning result) .running (.toStoring result)
  | toStoring (result : GenerationExecutionResult) :
      Turns (.toStoring result) .storing (.beforeCapture result)

/-- The steps that leave the local record as it is. -/
inductive Goes (p : Worker) : WorkerPc → Prop
  | dismissed (hpc : p.pc = .begin) : Goes p .ended
  | unpaid (hpc : p.pc = .begin) (hstatus : p.status = .reserved) :
      Goes p (.failing "GENERATION_BILLING_RESERVATION_MISSING" false)
  | begun (hpc : p.pc = .begin) (hstatus : p.status = .reserved) : Goes p .toQueued
  | along (next : WorkerPc) (st : GenerationStatus) (hpc : p.pc.local = some st)
      (hnext : next.local = some st) (hquiet : next.calls = false) : Goes p next
  | settled (hpc : p.pc = .releasing ∨ (∃ result, p.pc = .capture result)) : Goes p .ended
  | ended (hpc : p.pc = .ended) : Goes p .ended

/-- What a step of a worker can do; `p` is the worker at the time of the
step. -/
inductive WorkerMove (cfg : Config) (env : Env) (p : Worker) (s : Store) :
    Worker → Store → Prop
  | goes (next : WorkerPc) (hgoes : Goes p next) :
      WorkerMove cfg env p s { p with pc := next } s
  | raised (e : ExecuteError) (s' : Store) (st : GenerationStatus)
      (hpc : p.pc.local = some st) (hwrote : Spared p.token s s') :
      WorkerMove cfg env p s (p.raise e) s'
  | kept (next : WorkerPc) (s' : Store) (st : GenerationStatus)
      (hpc : p.pc.local = some st) (hnext : next.local = some st)
      (hquiet : next.calls = false) (hwrote : Spared p.token s s') :
      WorkerMove cfg env p s { p with pc := next } s'
  | turned (target : GenerationStatus) (next : WorkerPc) (v : TransitionValues)
      (r : GenerationRecord) (s' : Store) (hturns : Turns p.pc target next)
      (hok : p.transition p.clock target v s = .ok (r, s')) :
      WorkerMove cfg env p s { p with record := r, pc := next } s'
  | completed (result : GenerationExecutionResult) (r : GenerationRecord) (s' : Store)
      (hpc : p.pc = .complete result)
      (hok : p.complete cfg.book p.clock result s = .ok (r, s')) :
      WorkerMove cfg env p s { p with record := r, pc := .capture result } s'
  | captured (result : GenerationExecutionResult) (rid : Nat) (s' : Store)
      (hpc : p.pc = .capture result) (hrid : p.record.job.billingReservationId = some rid)
      (hcall : (attempt env.db s (captureHold cfg.book p.clock p.record.job.tenantId rid
        (some result.usage) s)).2 = s') :
      WorkerMove cfg env p s { p with pc := .ended } s'
  | failed (errorCode : String) (release : Bool) (s' : Store)
      (hpc : p.pc = .failing errorCode release)
      (hcall : (attempt env.db s (p.fail p.clock errorCode s)).2 = s') :
      WorkerMove cfg env p s { p with pc := if release then .releasing else .ended } s'
  | released (rid : Nat) (s' : Store) (hpc : p.pc = .releasing)
      (hrid : p.record.job.billingReservationId = some rid)
      (hcall : (attempt env.db s (releaseHold p.clock p.record.job.tenantId rid s)).2 = s') :
      WorkerMove cfg env p s { p with pc := .ended } s'

section

variable {p p' : Worker} {now : Nat}

/-- The fence of a worker is made of its record. -/
theorem Worker.fence_ok {f : Fence} (h : p.fence = .ok f) :
    f.tenantId = p.record.job.tenantId ∧ f.jobId = p.record.jobId
      ∧ p.token = some f.leaseToken ∧ f.fencingToken = p.record.job.fencingToken := by
  simp only [Worker.fence, requireJobFence, bind_eq_ok, orRaise_eq_ok, raiseIf_eq_ok,
    pure_eq_ok, Prod.exists, Prod.mk.injEq] at h
  obtain ⟨a, b, ⟨t, ht, -, -, rfl, rfl⟩, rfl⟩ := h
  exact ⟨rfl, rfl, ht, rfl⟩

/-- A transition of the worker: the row it found, still in the local
status, and what it wrote. -/
theorem Worker.transition_ok {target : GenerationStatus} {v : TransitionValues}
    {r : GenerationRecord} (h : p.transition now target v s = .ok (r, s')) :
    ∃ f j, p.fence = .ok f ∧ s.jobs.get p.record.jobId = some j ∧ f.live now j = true
      ∧ j.status = p.status ∧ target ∈ p.status.allowedTransitions
      ∧ r = ⟨p.record.jobId, j.transitioned now target v⟩
      ∧ s' = s.setJob p.record.jobId (j.transitioned now target v) := by
  simp only [Worker.transition, bind_eq_ok] at h
  obtain ⟨f, hf, h⟩ := h
  obtain ⟨j, hj, hlive, hstatus, hedge, hr, hs⟩ := Generation.transition_ok h
  rw [(Worker.fence_ok hf).2.1] at hj hr hs
  exact ⟨f, j, hf, hj, hlive, hstatus, hedge, hr, hs⟩

theorem Worker.transition_wrote {target : GenerationStatus} {v : TransitionValues}
    {r : GenerationRecord} (h : p.transition now target v s = .ok (r, s')) :
    Wrote p.token s s' := by
  simp only [Worker.transition, bind_eq_ok] at h
  obtain ⟨f, hf, h⟩ := h
  rw [(Worker.fence_ok hf).2.2.1]
  exact Generation.transition_wrote h

theorem Worker.transition_spared {target : GenerationStatus} {v : TransitionValues}
    {r : GenerationRecord} (htarget : target.negative = false)
    (h : p.transition now target v s = .ok (r, s')) : Spared p.token s s' := by
  simp only [Worker.transition, bind_eq_ok] at h
  obtain ⟨f, hf, h⟩ := h
  rw [(Worker.fence_ok hf).2.2.1]
  exact Generation.transition_spared htarget h

theorem Worker.heartbeat_ok {leaseSeconds : Nat} {r : GenerationRecord}
    (h : p.heartbeat now leaseSeconds s = .ok (r, s')) :
    r = p.record ∧ Spared p.token s s' := by
  simp only [Worker.heartbeat, bind_eq_ok, pure_eq_ok, Prod.exists, Prod.mk.injEq] at h
  obtain ⟨f, hf, u, s'', hlive, rfl, rfl⟩ := h
  rw [(Worker.fence_ok hf).2.2.1]
  exact ⟨rfl, ensureLive_spared hlive⟩

theorem Worker.complete_ok {book : Catalog.PriceBook} {result : GenerationExecutionResult}
    {r : GenerationRecord} (h : p.complete book now result s = .ok (r, s')) :
    ∃ j, s.jobs.get p.record.jobId = some j ∧ j.status = .storing
      ∧ r = ⟨p.record.jobId, j.completed now result⟩
      ∧ s'.jobs = (s.setJob p.record.jobId (j.completed now result)).jobs
      ∧ Spared p.token s s' := by
  simp only [Worker.complete, bind_eq_ok] at h
  obtain ⟨f, hf, h⟩ := h
  obtain ⟨j, hj, hstatus, hr, hs, hwrote⟩ := Generation.complete_ok h
  obtain ⟨-, hid, htoken, -⟩ := Worker.fence_ok hf
  rw [hid] at hj hr hs
  exact ⟨j, hj, hstatus, hr, hs, htoken ▸ hwrote⟩

/-- The three outcomes of a database call of the `try` block. -/
theorem Worker.advance_cases {db : DbOutcome} {next : WorkerPc}
    {call : Except GenerationError (GenerationRecord × Store)}
    (h : p.advance db next s call = (p', s')) :
    (p' = p.raise .other ∧ (s' = s ∨ ∃ r, call = .ok (r, s')))
      ∨ ∃ r, call = .ok (r, s') ∧ p' = { p with record := r, pc := next } := by
  unfold Worker.advance at h
  split at h
  · next hnone =>
      obtain ⟨rfl, rfl⟩ := Prod.mk.inj h
      obtain ⟨-, hs⟩ | ⟨r, hr, -⟩ := attempt_cases hnone
      · exact Or.inl ⟨rfl, Or.inl hs⟩
      · exact Or.inl ⟨rfl, Or.inr ⟨r, hr⟩⟩
  · next hsome =>
      obtain ⟨rfl, rfl⟩ := Prod.mk.inj h
      obtain ⟨h, -⟩ | ⟨r, hr, hnone | hr'⟩ := attempt_cases hsome
      · cases h
      · cases hnone
      · obtain rfl := Option.some.inj hr'
        exact Or.inr ⟨_, hr, rfl⟩

/-- The recording of a provider id either goes on or raises. -/
theorem Worker.recording_cases {db : DbOutcome} {next : WorkerPc}
    {call : Fence → Except GenerationError (Unit × Store)}
    (hcall : ∀ f u s', call f = .ok (u, s') → Spared (some f.leaseToken) s s')
    (h : p.recording db next s call = (p', s')) :
    Spared p.token s s' ∧ ((∃ e, p' = p.raise e) ∨ p' = { p with pc := next }) := by
  have hwrote : ∀ b, attempt db s (p.fence >>= call) = (b, s') → Spared p.token s s' := by
    intro b hb
    obtain ⟨-, rfl⟩ | ⟨u, hu, -⟩ := attempt_cases hb
    · exact .refl _
    · simp only [bind_eq_ok] at hu
      obtain ⟨f, hf, hu⟩ := hu
      rw [(Worker.fence_ok hf).2.2.1]
      exact hcall f u s' hu
  unfold Worker.recording at h
  split at h
  · next hnone =>
      obtain ⟨rfl, rfl⟩ := Prod.mk.inj h
      exact ⟨hwrote _ hnone, Or.inl ⟨_, rfl⟩⟩
  · next hsome =>
      obtain ⟨rfl, rfl⟩ := Prod.mk.inj h
      exact ⟨hwrote _ hsome, Or.inr rfl⟩

/-- A transition counter: turned, or the exception branch. -/
theorem WorkerMove.of_transition {db : DbOutcome} {target st : GenerationStatus}
    {next : WorkerPc} {v : TransitionValues} (hturns : Turns p.pc target next)
    (hpc : p.pc.local = some st) (htarget : target.negative = false)
    (h : p.advance db next s (p.transition p.clock target v s) = (p', s')) :
    WorkerMove cfg env p s p' s' := by
  obtain ⟨rfl, rfl | ⟨r, hr⟩⟩ | ⟨r, hr, rfl⟩ := Worker.advance_cases h
  · exact .raised _ _ st hpc (.refl _)
  · exact .raised _ _ st hpc (Worker.transition_spared htarget hr)
  · exact .turned target next v r s' hturns hr

/-- A heartbeat counter: on to the next, or the exception branch. -/
theorem WorkerMove.of_heartbeat {db : DbOutcome} {st : GenerationStatus}
    {next : WorkerPc} {leaseSeconds : Nat} (hpc : p.pc.local = some st)
    (hnext : next.local = some st) (hquiet : next.calls = false)
    (h : p.advance db next s (p.heartbeat p.clock leaseSeconds s) = (p', s')) :
    WorkerMove cfg env p s p' s' := by
  obtain ⟨rfl, rfl | ⟨r, hr⟩⟩ | ⟨r, hr, rfl⟩ := Worker.advance_cases h
  · exact .raised _ _ st hpc (.refl _)
  · exact .raised _ _ st hpc (Worker.heartbeat_ok hr).2
  · obtain ⟨rfl, hwrote⟩ := Worker.heartbeat_ok hr
    exact .kept next s' st hpc hnext hquiet hwrote

/-- A recording counter. -/
theorem WorkerMove.of_recording {db : DbOutcome} {next : WorkerPc}
    {call : Fence → Except GenerationError (Unit × Store)}
    (hpc : p.pc.local = some .submitted) (hnext : next.local = some .submitted)
    (hquiet : next.calls = false)
    (hcall : ∀ f u s', call f = .ok (u, s') → Spared (some f.leaseToken) s s')
    (h : p.recording db next s call = (p', s')) : WorkerMove cfg env p s p' s' := by
  obtain ⟨hwrote, ⟨e, rfl⟩ | rfl⟩ := Worker.recording_cases hcall h
  · exact .raised e s' .submitted hpc hwrote
  · exact .kept next s' .submitted hpc hnext hquiet hwrote

/-- A local step that stays at its status, or raises. -/
theorem WorkerMove.of_local {st : GenerationStatus} (hpc : p.pc.local = some st)
    (h : (∃ e, p' = p.raise e)
      ∨ ∃ next, p' = { p with pc := next } ∧ next.local = some st ∧ next.calls = false) :
    WorkerMove cfg env p s p' s := by
  obtain ⟨e, rfl⟩ | ⟨next, rfl, hnext, hquiet⟩ := h
  · exact .raised e s st hpc (.refl _)
  · exact .goes next (.along next st hpc hnext hquiet)

/-- `executor.execute` does not come back to its own call. -/
theorem executeStep_cases (ports : ProviderPorts) :
    (∃ e, executeStep cfg env p ports = p.raise e)
      ∨ ∃ next, executeStep cfg env p ports = { p with pc := next }
        ∧ next.local = some .submitted ∧ next.calls = false := by
  unfold executeStep
  split
  · exact Or.inl ⟨_, rfl⟩
  · split
    · exact Or.inl ⟨_, rfl⟩
    · next outcome _ =>
        cases outcome with
        | delivered d => exact Or.inr ⟨_, rfl, rfl, rfl⟩
        | task taskId durationSeconds => exact Or.inr ⟨_, rfl, rfl, rfl⟩

theorem pollStep_cases {taskId : String} {durationSeconds : Int} {deadline : Nat}
    (hpc : p.pc = .poll taskId durationSeconds deadline) :
    (∃ e, pollStep cfg env p taskId durationSeconds deadline = p.raise e)
      ∨ ∃ next, pollStep cfg env p taskId durationSeconds deadline = { p with pc := next }
        ∧ next.local = some .submitted ∧ next.calls = false := by
  unfold pollStep
  split
  · exact Or.inl ⟨_, rfl⟩
  · split
    · exact Or.inl ⟨_, rfl⟩
    · exact Or.inr ⟨p.pc, rfl, by rw [hpc]; rfl, by rw [hpc]; rfl⟩
    · exact Or.inr ⟨_, rfl, rfl, rfl⟩

theorem storeStep_cases (d : Delivery) :
    (∃ e, storeStep env p d = p.raise e)
      ∨ ∃ next, storeStep env p d = { p with pc := next }
        ∧ next.local = some .submitted ∧ next.calls = false := by
  unfold storeStep
  split
  · exact Or.inl ⟨_, rfl⟩
  · split
    · exact Or.inl ⟨_, rfl⟩
    · exact Or.inr ⟨_, rfl, rfl, rfl⟩

theorem admitStep_cases :
    (∃ e, admitStep env p = p.raise e)
      ∨ ∃ next, admitStep env p = { p with pc := next }
        ∧ next.local = some .queued ∧ next.calls = false := by
  unfold admitStep
  split
  · exact Or.inl ⟨_, rfl⟩
  · exact Or.inl ⟨_, rfl⟩
  · exact Or.inr ⟨_, rfl, rfl, rfl⟩
  · exact Or.inr ⟨_, rfl, rfl, rfl⟩

theorem beginStep_cases (hpc : p.pc = .begin) :
    ∃ next, beginStep p = { p with pc := next } ∧ Goes p next := by
  unfold beginStep
  split
  · exact ⟨_, rfl, .dismissed hpc⟩
  · next hstatus =>
      rw [not_not] at hstatus
      split
      · exact ⟨_, rfl, .dismissed hpc⟩
      · split
        · exact ⟨_, rfl, .unpaid hpc hstatus⟩
        · exact ⟨_, rfl, .begun hpc hstatus⟩

/-- The inversion of `workerStep`. -/
theorem workerStep_cases (h : workerStep cfg env p s = (p', s')) :
    WorkerMove cfg env (p.tick env) s p' s' := by
  obtain ⟨record, workerId, clock, pc⟩ := p
  cases pc with
  | begin =>
      obtain ⟨rfl, rfl⟩ := Prod.mk.inj h
      obtain ⟨next, heq, hgoes⟩ := beginStep_cases (p := ⟨record, workerId, clock + env.elapsed, .begin⟩) rfl
      exact heq ▸ .goes next hgoes
  | toQueued =>
      exact .of_transition .toQueued rfl rfl h
  | beforeProvider =>
      exact .of_heartbeat rfl rfl rfl h
  | admission =>
      obtain ⟨rfl, rfl⟩ := Prod.mk.inj h
      exact .of_local rfl admitStep_cases
  | requeue =>
      exact .of_transition .requeue rfl rfl h
  | toSubmitted ports =>
      exact .of_transition (.toSubmitted ports) rfl rfl h
  | execute ports =>
      obtain ⟨rfl, rfl⟩ := Prod.mk.inj h
      exact .of_local rfl (executeStep_cases ports)
  | recordTask taskId durationSeconds =>
      dsimp only [workerStep] at h
      split at h
      · obtain ⟨rfl, rfl⟩ := Prod.mk.inj h
        exact .of_local rfl (Or.inl ⟨_, rfl⟩)
      · exact .of_recording rfl rfl rfl
          (fun _ _ _ => recordProviderTask_spared) h
  | poll taskId durationSeconds deadline =>
      obtain ⟨rfl, rfl⟩ := Prod.mk.inj h
      exact .of_local rfl (pollStep_cases rfl)
  | recordRequest d =>
      dsimp only [workerStep] at h
      split at h
      · obtain ⟨rfl, rfl⟩ := Prod.mk.inj h
        exact .of_local rfl (Or.inl ⟨_, rfl⟩)
      · split at h
        · obtain ⟨rfl, rfl⟩ := Prod.mk.inj h
          exact .of_local rfl (Or.inr ⟨_, rfl, rfl, rfl⟩)
        · exact .of_recording rfl rfl rfl
            (fun _ _ _ => recordProviderRequest_spared) h
  | store d =>
      obtain ⟨rfl, rfl⟩ := Prod.mk.inj h
      exact .of_local rfl (storeStep_cases d)
  | afterProvider result =>
      exact .of_heartbeat rfl rfl rfl h
  | toRunning result =>
      exact .of_transition (.toRunning result) rfl rfl h
  | toStoring result =>
      exact .of_transition (.toStoring result) rfl rfl h
  | beforeCapture result =>
      exact .of_heartbeat rfl rfl rfl h
  | complete result =>
      obtain ⟨rfl, rfl | ⟨r, hr⟩⟩ | ⟨r, hr, rfl⟩ := Worker.advance_cases h
      · exact .raised _ _ .storing rfl (.refl _)
      · obtain ⟨-, -, -, -, -, hwrote⟩ := Worker.complete_ok hr
        exact .raised _ _ .storing rfl hwrote
      · exact .completed result r s' rfl hr
  | capture result =>
      dsimp only [workerStep] at h
      split at h
      · obtain ⟨rfl, rfl⟩ := Prod.mk.inj h
        exact .goes _ (.settled (Or.inr ⟨result, rfl⟩))
      · next rid hrid =>
          obtain ⟨rfl, rfl⟩ := Prod.mk.inj h
          exact .captured result rid _ rfl hrid rfl
  | failing errorCode release =>
      obtain ⟨rfl, rfl⟩ := Prod.mk.inj h
      exact .failed errorCode release _ rfl rfl
  | releasing =>
      dsimp only [workerStep] at h
      split at h
      · obtain ⟨rfl, rfl⟩ := Prod.mk.inj h
        exact .goes _ (.settled (Or.inl rfl))
      · next rid hrid =>
          obtain ⟨rfl, rfl⟩ := Prod.mk.inj h
          exact .released rid _ rfl hrid rfl
  | ended =>
      obtain ⟨rfl, rfl⟩ := Prod.mk.inj h
      exact .goes _ (.ended rfl)

end

-- ======================================================== hold settlement

/-- What a release did: nothing, or one pending hold became released. -/
structure ReleasedHold (now tenantId rid : Nat) (s s' : Store) : Prop where
  jobs : s'.jobs = s.jobs
  nextUuid : s'.nextUuid = s.nextUuid
  row : s'.billing.reservations = s.billing.reservations
    ∨ ∃ r, r.tenantId = tenantId ∧ r.status = .pending
      ∧ Table.Replaced s.billing.reservations s'.billing.reservations rid r
        { r with status := .released, releasedAt := some now }

/-- What a capture did: nothing, or one pending hold became committed. -/
structure CapturedHold (now tenantId rid : Nat) (s s' : Store) : Prop where
  jobs : s'.jobs = s.jobs
  nextUuid : s'.nextUuid = s.nextUuid
  row : s'.billing.reservations = s.billing.reservations
    ∨ ∃ r amount, r.tenantId = tenantId ∧ r.status = .pending ∧ now < r.expiresAt
      ∧ Table.Replaced s.billing.reservations s'.billing.reservations rid r
        { r with status := .committed, capturedAmountMinor := some amount
                 committedAt := some now }

theorem billingCall_ok {α : Type} {u : Unit}
    {x : Except Billing.BillingError (α × Billing.Db)}
    (h : billingCall s x = .ok (u, s')) :
    ∃ y, x = .ok y ∧ s' = { s with billing := y.2 } := by
  rw [billingCall, mapError_eq_ok] at h
  cases x with
  | error e => cases h
  | ok y =>
      obtain ⟨-, rfl⟩ := Prod.mk.inj (Except.ok.inj h)
      exact ⟨y, rfl, rfl⟩

theorem releaseHold_moved {db : DbOutcome} {now tenantId rid : Nat}
    (h : (attempt db s (releaseHold now tenantId rid s)).2 = s') :
    ReleasedHold now tenantId rid s s' := by
  rcases attempt_store h with rfl | ⟨u, hu⟩
  · exact ⟨rfl, rfl, Or.inl rfl⟩
  · obtain ⟨y, hy, rfl⟩ := billingCall_ok hu
    exact ⟨rfl, rfl, Billing.release_row hy⟩

theorem captureHold_moved {db : DbOutcome} {book : Catalog.PriceBook}
    {now tenantId rid : Nat} {usage : Option Billing.BillingUsage}
    (h : (attempt db s (captureHold book now tenantId rid usage s)).2 = s') :
    CapturedHold now tenantId rid s s' := by
  rcases attempt_store h with rfl | ⟨u, hu⟩
  · exact ⟨rfl, rfl, Or.inl rfl⟩
  · obtain ⟨y, hy, rfl⟩ := billingCall_ok hu
    exact ⟨rfl, rfl, Billing.capture_row hy⟩

-- ======================================================= resolve_failed

/-- What a transaction of `resolve_failed` can do. -/
inductive ResolveMove (db : DbOutcome) (now : Nat) (q : ResolveRequest) (s : Store) :
    ResolvePc → Option (Option ResolvePc) → Store → Prop
  | requested (outcome : Option (Option ResolvePc)) (s' : Store) (hwrote : Wrote none s s')
      (hnext : ∀ pc, outcome = some (some pc) → ∃ rid j', pc = .release rid
        ∧ s'.jobs.get q.jobId = some j' ∧ j'.status = .failed
        ∧ j'.billingReservationId = some rid ∧ j'.tenantId = q.tenantId) :
      ResolveMove db now q s .request outcome s'
  | released (rid : Nat) (outcome : Option (Option ResolvePc)) (s' : Store)
      (hrow : ReleasedHold now q.tenantId rid s s')
      (hnext : ∀ pc, outcome = some (some pc) → pc = .finish) :
      ResolveMove db now q s (.release rid) outcome s'
  | finished (outcome : Option (Option ResolvePc)) (s' : Store) (hwrote : Wrote none s s')
      (hnext : ∀ pc, outcome ≠ some (some pc)) :
      ResolveMove db now q s .finish outcome s'

theorem resolveStep_cases {db : DbOutcome} {now : Nat} {q : ResolveRequest}
    {pc : ResolvePc} {outcome : Option (Option ResolvePc)}
    (h : resolveStep db now q pc s = (outcome, s')) :
    ResolveMove db now q s pc outcome s' := by
  cases pc with
  | request =>
      dsimp only [resolveStep] at h
      split at h
      · next s'' hcall =>
          obtain ⟨rfl, rfl⟩ := Prod.mk.inj h
          refine .requested none s'' ?_ (by simp)
          rcases attempt_cases hcall with ⟨-, rfl⟩ | ⟨rid, hrid, -⟩
          · exact .refl _
          · exact (resolveFailedRequest_ok hrid).1
      · next s'' hcall =>
          obtain ⟨rfl, rfl⟩ := Prod.mk.inj h
          refine .requested (some none) s'' ?_ (by simp)
          rcases attempt_cases hcall with ⟨h, -⟩ | ⟨rid, hrid, -⟩
          · cases h
          · exact (resolveFailedRequest_ok hrid).1
      · next rid s'' hcall =>
          obtain ⟨rfl, rfl⟩ := Prod.mk.inj h
          rcases attempt_cases hcall with ⟨h, -⟩ | ⟨x, hx, h | h⟩
          · cases h
          · cases h
          · obtain rfl := Option.some.inj h
            obtain ⟨hwrote, hjob⟩ := resolveFailedRequest_ok hx
            obtain ⟨j', hj', hstatus, hrid, htenant⟩ := hjob rid rfl
            refine .requested _ s'' hwrote fun pc hpc => ?_
            obtain rfl := Option.some.inj (Option.some.inj hpc)
            exact ⟨rid, j', rfl, hj', hstatus, hrid, htenant⟩
  | release rid =>
      dsimp only [resolveStep] at h
      split at h
      · next s'' hcall =>
          obtain ⟨rfl, rfl⟩ := Prod.mk.inj h
          exact .released rid none s'' (releaseHold_moved (by rw [hcall])) (by simp)
      · next s'' hcall =>
          obtain ⟨rfl, rfl⟩ := Prod.mk.inj h
          exact .released rid _ s'' (releaseHold_moved (by rw [hcall])) (by simp)
  | finish =>
      have hwrote : ∀ b s'', attempt db s (resolveFailedFinish now q.tenantId q.jobId
          q.subject s) = (b, s'') → Wrote none s s'' := by
        intro b s'' hb
        rcases attempt_cases hb with ⟨-, rfl⟩ | ⟨u, hu, -⟩
        · exact .refl _
        · exact resolveFailedFinish_wrote hu
      dsimp only [resolveStep] at h
      split at h
      · next s'' hcall =>
          obtain ⟨rfl, rfl⟩ := Prod.mk.inj h
          exact .finished none s'' (hwrote _ _ hcall) (by simp)
      · next s'' hcall =>
          obtain ⟨rfl, rfl⟩ := Prod.mk.inj h
          exact .finished _ s'' (hwrote _ _ hcall) (by simp)

-- ============================================================= recovery

/-- The recovery at the time of its step. -/
def Recovery.tick (env : Env) (p : Recovery) : Recovery :=
  { p with clock := p.clock + env.elapsed }

/-- The counter of the resolution a recovery is in. -/
def RecoveryPc.resolving : RecoveryPc → Option ResolvePc
  | .resolve pc => some pc
  | _ => none

/-- Where a transaction of its resolution takes a recovery. -/
def Recovery.resolved (p : Recovery) (outcome : Option (Option ResolvePc)) : Recovery :=
  { p with pc := match outcome with
      | none => .unclaim
      | some none => .ended
      | some (some pc) => .resolve pc }

/-- What a step of a recovery can do. -/
inductive RecoveryMove (cfg : Config) (env : Env) (p : Recovery) (s : Store) :
    Recovery → Store → Prop
  | recovered (hpc : p.pc = .recover) :
      RecoveryMove cfg env p s (recoverStep cfg env p) s
  | resolved (pc : ResolvePc) (outcome : Option (Option ResolvePc)) (s' : Store)
      (hpc : p.pc = .resolve pc)
      (hmove : ResolveMove env.db p.clock p.resolution s pc outcome s') :
      RecoveryMove cfg env p s (p.resolved outcome) s'
  | wrote (p' : Recovery) (s' : Store) (hfence : p'.fence = p.fence)
      (hquiet : p'.pc.resolving = none) (hnot : p'.pc ≠ .capture)
      (hwrote : Spared (some p.fence.leaseToken) s s') : RecoveryMove cfg env p s p' s'
  | completed (result : GenerationExecutionResult) (r : GenerationRecord) (s' : Store)
      (hok : complete cfg.book p.clock p.fence result s = .ok (r, s')) :
      RecoveryMove cfg env p s { p with record := r, pc := .capture } s'
  | captured (next : RecoveryPc) (rid : Nat) (s' : Store) (hquiet : next.resolving = none)
      (hnot : next ≠ .capture) (hpc : p.pc = .capture)
      (hrid : p.record.job.billingReservationId = some rid)
      (hrow : CapturedHold p.clock p.record.job.tenantId rid s s') :
      RecoveryMove cfg env p s { p with pc := next } s'

/-- A fenced call of the recovery leads to its next counter or to the
exception branch. -/
theorem RecoveryMove.of_advance {p p' : Recovery} {db : DbOutcome} {next : RecoveryPc}
    {call : Except GenerationError (GenerationRecord × Store)}
    (hcall : ∀ r s', call = .ok (r, s') → Spared (some p.fence.leaseToken) s s')
    (hquiet : next.resolving = none) (hnot : next ≠ .capture)
    (h : p.advance db next s call = (p', s')) : RecoveryMove cfg env p s p' s' := by
  unfold Recovery.advance at h
  split at h
  · next hnone =>
      obtain ⟨rfl, rfl⟩ := Prod.mk.inj h
      refine .wrote _ _ rfl rfl (by simp) ?_
      rcases attempt_cases hnone with ⟨-, rfl⟩ | ⟨r, hr, -⟩
      · exact .refl _
      · exact hcall r _ hr
  · next hsome =>
      obtain ⟨rfl, rfl⟩ := Prod.mk.inj h
      refine .wrote _ _ rfl hquiet hnot ?_
      rcases attempt_cases hsome with ⟨h, -⟩ | ⟨r, hr, -⟩
      · cases h
      · exact hcall r _ hr

theorem recoveryStep_cases {p p' : Recovery} (h : recoveryStep cfg env p s = (p', s')) :
    RecoveryMove cfg env (p.tick env) s p' s' := by
  obtain ⟨record, fence, clock, pc⟩ := p
  have hclaim : ∀ b s', attempt env.db s (releaseReconciliationClaim
      (clock + env.elapsed) fence s) = (b, s') → Spared (some fence.leaseToken) s s' := by
    intro b s' hb
    rcases attempt_cases hb with ⟨-, rfl⟩ | ⟨u, hu, -⟩
    · exact .refl _
    · exact releaseReconciliationClaim_spared hu
  cases pc with
  | recover =>
      obtain ⟨rfl, rfl⟩ := Prod.mk.inj h
      exact .recovered rfl
  | resolve pc =>
      obtain ⟨rfl, rfl⟩ := Prod.mk.inj h
      exact .resolved pc _ _ rfl (resolveStep_cases rfl)
  | giveBack =>
      dsimp only [recoveryStep] at h
      split at h
      · next hcall =>
          obtain ⟨rfl, rfl⟩ := Prod.mk.inj h
          exact .wrote _ _ rfl rfl (by simp) (hclaim _ _ hcall)
      · next hcall =>
          obtain ⟨rfl, rfl⟩ := Prod.mk.inj h
          exact .wrote _ _ rfl rfl (by simp) (hclaim _ _ hcall)
  | toRunning result => exact .of_advance (fun _ _ => transition_spared rfl) rfl (by simp) h
  | toStoring result => exact .of_advance (fun _ _ => transition_spared rfl) rfl (by simp) h
  | complete result =>
      dsimp only [recoveryStep, Recovery.advance] at h
      split at h
      · next hnone =>
          obtain ⟨rfl, rfl⟩ := Prod.mk.inj h
          refine .wrote _ _ rfl rfl (by simp) ?_
          rcases attempt_cases hnone with ⟨-, rfl⟩ | ⟨r, hr, -⟩
          · exact .refl _
          · obtain ⟨-, -, -, -, -, hwrote⟩ := complete_ok hr
            exact hwrote
      · next hsome =>
          obtain ⟨rfl, rfl⟩ := Prod.mk.inj h
          rcases attempt_cases hsome with ⟨h, -⟩ | ⟨r, hr, h | h⟩
          · cases h
          · cases h
          · obtain rfl := Option.some.inj h
            exact .completed result _ _ hr
  | capture =>
      dsimp only [recoveryStep] at h
      split at h
      · obtain ⟨rfl, rfl⟩ := Prod.mk.inj h
        exact .wrote _ _ rfl rfl (by simp) (.refl _)
      · next rid hrid =>
          split at h
          · next hcall =>
              obtain ⟨rfl, rfl⟩ := Prod.mk.inj h
              exact .captured .unclaim rid _ rfl (by simp) rfl hrid (captureHold_moved
                (congrArg Prod.snd hcall))
          · next hcall =>
              obtain ⟨rfl, rfl⟩ := Prod.mk.inj h
              exact .captured .ended rid _ rfl (by simp) rfl hrid (captureHold_moved (congrArg Prod.snd hcall))
  | unclaim =>
      dsimp only [recoveryStep] at h
      obtain ⟨rfl, rfl⟩ := Prod.mk.inj h
      exact .wrote _ _ rfl rfl (by simp) (hclaim _ _ rfl)
  | ended =>
      obtain ⟨rfl, rfl⟩ := Prod.mk.inj h
      exact .wrote _ _ rfl rfl (by simp) (.refl _)

-- =================================================== billing reconciler

/-- The pass at the time of its step. -/
def Reconciler.tick (env : Env) (p : Reconciler) : Reconciler :=
  { p with clock := p.clock + env.elapsed }

/-- What a step of the pass can do. -/
inductive ReconcilerMove (cfg : Config) (env : Env) (p : Reconciler) (s : Store)
    (p' : Reconciler) : Store → Prop
  | idle (hrows : p'.rows ⊆ p.rows)
      (hquiet : ∀ row, p'.pc ≠ .releaseExpired row) : ReconcilerMove cfg env p s p' s
  | expired (row : SettlementRow) (hpc : p.pc = .next)
      (hrows : p'.rows ⊆ p.rows) (hrow : row ∈ p.rows) (hstatus : row.status = .succeeded)
      (hclock : p'.clock = p.clock) (hnext : p'.pc = .releaseExpired row)
      (hraises : ∃ e, captureHold cfg.book p.clock row.tenantId row.reservationId none s
        = .error e ∧ e.isReservationExpired = true) : ReconcilerMove cfg env p s p' s
  | captured (row : SettlementRow) (s' : Store)
      (hrows : p'.rows ⊆ p.rows) (hquiet : ∀ row, p'.pc ≠ .releaseExpired row)
      (hhold : CapturedHold p.clock row.tenantId row.reservationId s s') :
      ReconcilerMove cfg env p s p' s'
  | released (row : SettlementRow) (s' : Store)
      (hpc : (p.pc = .next ∧ row ∈ p.rows ∧ row.status ≠ .succeeded)
        ∨ p.pc = .releaseExpired row)
      (hrows : p'.rows ⊆ p.rows) (hquiet : ∀ row, p'.pc ≠ .releaseExpired row)
      (hhold : ReleasedHold p.clock row.tenantId row.reservationId s s') :
      ReconcilerMove cfg env p s p' s'
  | marked (s' : Store) (hrows : p'.rows ⊆ p.rows)
      (hquiet : ∀ row, p'.pc ≠ .releaseExpired row) (hwrote : Wrote none s s') :
      ReconcilerMove cfg env p s p' s'

/-- A release of the pass. -/
theorem Reconciler.release_cases {p q p' : Reconciler} {db : DbOutcome}
    {row : SettlementRow} (hq : q.rows ⊆ p.rows ∧ q.clock = p.clock)
    (hpc : (p.pc = .next ∧ row ∈ p.rows ∧ row.status ≠ .succeeded)
      ∨ p.pc = .releaseExpired row)
    (h : q.release db row s = (p', s')) : ReconcilerMove cfg env p s p' s' := by
  unfold Reconciler.release at h
  split at h
  · next hcall =>
      obtain ⟨rfl, rfl⟩ := Prod.mk.inj h
      rw [hq.2] at hcall
      exact .released row _ hpc hq.1 (by simp) (releaseHold_moved (by rw [hcall]))
  · next hcall =>
      obtain ⟨rfl, rfl⟩ := Prod.mk.inj h
      rw [hq.2] at hcall
      refine .released row _ hpc ?_ ?_ (releaseHold_moved (by rw [hcall]))
      · unfold Reconciler.released
        split <;> exact hq.1
      · unfold Reconciler.released
        split <;> simp

/-- A capture of the pass. -/
theorem Reconciler.capture_cases {p q p' : Reconciler} {db : DbOutcome}
    {row : SettlementRow} (hq : q.rows ⊆ p.rows ∧ q.clock = p.clock ∧ q.pc = p.pc)
    (hpc : p.pc = .next) (hrow : row ∈ p.rows) (hstatus : row.status = .succeeded)
    (h : q.capture cfg db row s = (p', s')) : ReconcilerMove cfg env p s p' s' := by
  obtain ⟨hrows, hclock, hqpc⟩ := hq
  unfold Reconciler.capture at h
  rw [hclock] at h
  split at h
  · next e he =>
      split at h
      · next hexpired =>
          obtain ⟨rfl, rfl⟩ := Prod.mk.inj h
          exact .expired row hpc hrows hrow hstatus rfl rfl ⟨e, he, hexpired⟩
      · obtain ⟨rfl, rfl⟩ := Prod.mk.inj h
        exact .idle hrows (by simp)
  · next x hx =>
      have hhold : ∀ b s'', attempt db s (.ok x : Except GenerationError (Unit × Store))
          = (b, s'') → CapturedHold p.clock row.tenantId row.reservationId s s'' := by
        intro b s'' hb
        rw [← hx] at hb
        exact captureHold_moved (by rw [hb])
      split at h
      · next hcall =>
          obtain ⟨rfl, rfl⟩ := Prod.mk.inj h
          exact .captured row _ hrows (by simp) (hhold _ _ hcall)
      · next hcall =>
          obtain ⟨rfl, rfl⟩ := Prod.mk.inj h
          exact .captured row _ hrows (by simp) (hhold _ _ hcall)

theorem reconcilerStep_cases {p p' : Reconciler}
    (h : reconcilerStep cfg env p s = (p', s')) :
    ReconcilerMove cfg env (p.tick env) s p' s' := by
  obtain ⟨rows, clock, pc⟩ := p
  cases pc with
  | next =>
      cases rows with
      | nil =>
          obtain ⟨rfl, rfl⟩ := Prod.mk.inj h
          exact .idle (List.Subset.refl _) (by simp)
      | cons row rows =>
          have hrows : rows ⊆ row :: rows := List.subset_cons_self row rows
          dsimp only [reconcilerStep] at h
          split at h
          · next hstatus =>
              split at h
              · obtain ⟨rfl, rfl⟩ := Prod.mk.inj h
                exact .idle hrows (by simp)
              · exact Reconciler.capture_cases (q := ⟨rows, clock + env.elapsed, .next⟩)
                  ⟨hrows, rfl, rfl⟩ rfl List.mem_cons_self hstatus h
          · next hstatus =>
              exact Reconciler.release_cases (q := ⟨rows, clock + env.elapsed, .next⟩)
                ⟨hrows, rfl⟩ (Or.inl ⟨rfl, List.mem_cons_self, hstatus⟩) h
  | releaseExpired row =>
      exact Reconciler.release_cases ⟨List.Subset.refl _, rfl⟩ (Or.inr rfl) h
  | markResolved row =>
      have hwrote : ∀ b s'', attempt env.db s (.ok ((), markReconciliationResolved
          (clock + env.elapsed) row.tenantId row.jobId s)
          : Except GenerationError (Unit × Store)) = (b, s'') → Wrote none s s'' := by
        intro b s'' hb
        rcases attempt_cases hb with ⟨-, rfl⟩ | ⟨u, hu, -⟩
        · exact .refl _
        · obtain ⟨-, rfl⟩ := Prod.mk.inj (Except.ok.inj hu)
          exact markReconciliationResolved_wrote _ _ _
      dsimp only [reconcilerStep] at h
      split at h
      · next hcall =>
          obtain ⟨rfl, rfl⟩ := Prod.mk.inj h
          exact .marked _ (List.Subset.refl _) (by simp) (hwrote _ _ hcall)
      · next hcall =>
          obtain ⟨rfl, rfl⟩ := Prod.mk.inj h
          exact .marked _ (List.Subset.refl _) (by simp) (hwrote _ _ hcall)
  | ended =>
      obtain ⟨rfl, rfl⟩ := Prod.mk.inj h
      exact .idle (List.Subset.refl _) (by simp)

end Mosaic.Generation
