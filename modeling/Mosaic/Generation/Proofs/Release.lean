/-
When a generation hold is released.

Every release but a worker's own is decided on a durable terminal
status: the operator's and the recovery's on a job they just failed, the
billing pass's on a row it selected as terminal. A worker decides from
its local job: after an exception it runs `_fail`, which swallows every
error, and then releases. So a worker that lost its lease, or whose
failure write was rolled back, frees the hold of a job that is still
`queued`, or that the stall sweep made `submitted_unknown`
(`hold_released_while_unknown`).

`failuresLand` is the condition that excludes exactly this: whenever a
worker that goes on to release runs `_fail`, the job has already failed,
or the write of `_fail` goes through. In every run that meets it a hold
is released on a definitive outcome only
(`hold_released_on_definitive_outcome`).
-/
import Mosaic.Generation.Proofs.Holds

namespace Mosaic.Generation

open Lib Providers

variable {cfg : Config} {w w' : World} {s s' : Store} {a : Act} {uuid : Nat}
  {token : Option Nat} {sweep : Bool} {j j' : GenerationJob}

-- ============================================================ condition

/-- The failure write of the worker goes through on this row. -/
def Worker.failLands (env : Env) (p : Worker) (j : GenerationJob) : Bool :=
  env.db != .rolledBack && j.status == p.status && match p.fence with
    | .ok f => f.live (p.clock + env.elapsed) j
    | .error _ => false

/-- A worker about to fail a job and release its hold finds the job failed
already, or fails it. -/
def failuresLand (w : World) : Act → Bool
  | .work pid env =>
      match w.parties.get pid with
      | some (.worker p) =>
          match p.pc with
          | .failing _ true => (w.store.jobs.get p.record.jobId).any fun j =>
              j.status.negative || p.failLands env j
          | _ => true
      | _ => true
  | _ => true

-- ============================================================ processes

/-- The job of a resolution has failed, and this is its hold. -/
def ResolveRequest.Failed (q : ResolveRequest) (rid : Nat) (s : Store) : Prop :=
  ∃ j, s.jobs.get q.jobId = some j ∧ j.status = .failed ∧ j.billingReservationId = some rid

/-- A row of a billing pass is still what the pass selected. -/
def SettlementRow.Stands (row : SettlementRow) (s : Store) : Prop :=
  ∃ j, s.jobs.get row.jobId = some j ∧ j.status = row.status
    ∧ row.status.isTerminal = true ∧ j.billingReservationId = some row.reservationId

/-- And its hold is past its expiry. -/
def SettlementRow.Overdue (row : SettlementRow) (clock : Nat) (s : Store) : Prop :=
  row.Stands s ∧ row.status = .succeeded
    ∧ ∃ r, s.billing.reservations.get row.reservationId = some r ∧ r.expiresAt ≤ clock

/-- What a process that is about to release a hold knows. -/
def Party.Justified (s : Store) : Party → Prop
  | .worker p => p.Local ∧ Tracks p.record s
      ∧ (p.pc = .releasing → ∃ j, s.jobs.get p.record.jobId = some j
        ∧ j.status.negative = true)
  | .recovery p => ∀ rid, p.pc = .resolve (.release rid) → p.resolution.Failed rid s
  | .operator p => ∀ rid, p.pc = some (.release rid) → p.request.Failed rid s
  | .reconciler p => (∀ row ∈ p.rows, row.Stands s)
      ∧ ∀ row, p.pc = .releaseExpired row → row.Overdue p.clock s

theorem GenerationStatus.terminal_of_negative {st : GenerationStatus}
    (h : st.negative = true) : st.isTerminal = true := by
  cases st <;> first | rfl | cases h

section

variable (hstep : JobsStep uuid token sweep s.jobs s'.jobs)

include hstep

theorem ResolveRequest.Failed.step {q : ResolveRequest} {rid : Nat} (h : q.Failed rid s) :
    q.Failed rid s' := by
  obtain ⟨j, hj, hstatus, hrid⟩ := h
  obtain ⟨j', hj', hmove⟩ := hstep.old _ j hj
  have hterminal : j.status.isTerminal = true := by rw [hstatus]; rfl
  exact ⟨j', hj', (hmove.terminal hterminal).trans hstatus, hmove.frame.2.trans hrid⟩

theorem SettlementRow.Stands.step {row : SettlementRow} (h : row.Stands s) :
    row.Stands s' := by
  obtain ⟨j, hj, hstatus, hterminal, hrid⟩ := h
  obtain ⟨j', hj', hmove⟩ := hstep.old _ j hj
  exact ⟨j', hj', (hmove.terminal (hstatus ▸ hterminal)).trans hstatus, hterminal,
    hmove.frame.2.trans hrid⟩

/-- A negative status is final. -/
theorem negative_step {id : Nat}
    (h : ∃ j, s.jobs.get id = some j ∧ j.status.negative = true) :
    ∃ j, s'.jobs.get id = some j ∧ j.status.negative = true := by
  obtain ⟨j, hj, hneg⟩ := h
  obtain ⟨j', hj', hmove⟩ := hstep.old _ j hj
  refine ⟨j', hj', ?_⟩
  rw [hmove.terminal (GenerationStatus.terminal_of_negative hneg)]
  exact hneg

end

/-- The expiry of a hold never changes. -/
theorem WorldMove.expiresAt (hinv : HoldInv w.store) (h : WorldMove cfg w a w')
    {rid : Nat} {r : Billing.BalanceReservation}
    (hr : w.store.billing.reservations.get rid = some r) :
    ∃ r', w'.store.billing.reservations.get rid = some r' ∧ r'.expiresAt = r.expiresAt := by
  rcases h.holdsStep with ⟨now, tenantId, j, res, hnew⟩ | hholds
  · obtain ⟨-, -, b, hins, -⟩ := hinv.fresh_hold hnew
    rw [hins]
    exact ⟨r, Table.get_insert_of_some hr b, rfl⟩
  · cases hholds with
    | same hsame hjobs hkept => exact ⟨r, by rw [hsame, hr], rfl⟩
    | settled rid' x x' hjobs hrep hmove =>
        by_cases hrid : rid = rid'
        · subst hrid
          obtain rfl := Option.some.inj (hrep.old.symm.trans hr)
          exact ⟨x', hrep.new, hmove.frame.2.2.2.1⟩
        · exact ⟨r, by rw [hrep.other hrid, hr], rfl⟩

/-- What a process knows stays true. -/
theorem Party.Justified.step {q : Party} (h : q.Justified w.store)
    (hinv : HoldInv w.store) (hmove : WorldMove cfg w a w') : q.Justified w'.store := by
  obtain ⟨token, hstep⟩ := hmove.step
  cases q with
  | worker p =>
      obtain ⟨hlocal, htracks, hreleasing⟩ := h
      exact ⟨hlocal, htracks.step hstep, fun hpc => negative_step hstep (hreleasing hpc)⟩
  | recovery p => exact fun rid hpc => (h rid hpc).step hstep
  | operator p => exact fun rid hpc => (h rid hpc).step hstep
  | reconciler p =>
      refine ⟨fun row hrow => (h.1 row hrow).step hstep, fun row hpc => ?_⟩
      obtain ⟨hstands, hstatus, r, hr, hle⟩ := h.2 row hpc
      obtain ⟨r', hr', hexpires⟩ := hmove.expiresAt hinv hr
      exact ⟨hstands.step hstep, hstatus, r', hr', hexpires ▸ hle⟩

-- ============================================================ invariant

structure ReleaseInv (w : World) : Prop where
  hold : HoldInv w.store
  party : ∀ pid q, w.parties.get pid = some q → q.Justified w.store

theorem WorldOpening.releaseInv (h : WorldOpening w) : ReleaseInv w :=
  ⟨h.holdInv, by simp [h.parties]⟩

/-- A failure write that lands leaves a failed job. -/
theorem Worker.fail_lands {env : Env} {p : Worker} (hp : p.Local)
    (hpc : p.pc = .failing "GENERATION_EXECUTION_FAILED" true)
    (hj : s.jobs.get p.record.jobId = some j) (hlands : p.failLands env j = true) :
    ∃ j', (attempt env.db s (p.fail (p.clock + env.elapsed) "GENERATION_EXECUTION_FAILED"
        s)).2.jobs.get p.record.jobId = some j' ∧ j'.status = .failed := by
  simp only [Worker.failLands, Bool.and_eq_true, bne_iff_ne, beq_iff_eq] at hlands
  obtain ⟨⟨hdb, hstatus⟩, hlive⟩ := hlands
  split at hlive
  case h_2 => cases hlive
  next f hf =>
  have hjob := (Worker.fence_ok hf).2.1
  have hedge : GenerationStatus.failed ∈ p.status.allowedTransitions := by
    have hprogress := (hp.failing _ _ hpc).1
    cases hst : p.status <;> rw [hst] at hprogress <;> first | decide | cases hprogress
  have hfencing : ¬ f.fencingToken < 1 := by
    simp only [Worker.fence, requireJobFence, bind_eq_ok, orRaise_eq_ok, raiseIf_eq_ok,
      pure_eq_ok, Prod.exists, Prod.mk.injEq] at hf
    obtain ⟨-, -, ⟨-, -, -, hpos, rfl, rfl⟩, rfl⟩ := hf
    exact hpos
  have hcall : p.fail (p.clock + env.elapsed) "GENERATION_EXECUTION_FAILED" s
      = .ok (⟨p.record.jobId, j.transitioned (p.clock + env.elapsed) .failed
          { errorCode := some "GENERATION_EXECUTION_FAILED" }⟩,
        s.setJob p.record.jobId (j.transitioned (p.clock + env.elapsed) .failed
          { errorCode := some "GENERATION_EXECUTION_FAILED" })) := by
    have hrow : f.row (p.clock + env.elapsed) s (fun j => j.status == p.status)
        = some j := by
      rw [Fence.row_eq_some, hjob]
      exact ⟨hj, hlive, by rw [hstatus]; exact beq_self_eq_true _⟩
    have hcode : isErrorCode "GENERATION_EXECUTION_FAILED" = true := by decide +kernel
    simp [Worker.fail, Worker.transition, hf, Generation.transition, assertTransition,
      validateFence, raiseIf, orRaise, hedge, hfencing, hrow, hcode, providerIdTaken, hjob,
      bind, Except.bind, pure, Except.pure]
  rw [hcall]
  refine ⟨j.transitioned (p.clock + env.elapsed) .failed
    { errorCode := some "GENERATION_EXECUTION_FAILED" }, ?_, rfl⟩
  cases hd : env.db with
  | rolledBack => exact absurd hd hdb
  | committed => simp [attempt, Store.setJob, hj]
  | ackLost => simp [attempt, Store.setJob, hj]

/-- A step of a worker keeps its knowledge, if its failures land. -/
theorem WorkerMove.justified {pid : Nat} {env : Env} {p p' : Worker}
    (h : (Party.worker p).Justified w.store) (hp : w.parties.get pid = some (.worker p))
    (hgood : failuresLand w (.work pid env) = true)
    (hmove : WorkerMove cfg env (p.tick env) w.store p' s') :
    (Party.worker p').Justified s' := by
  obtain ⟨hlocal, htracks, hreleasing⟩ := h
  have hticked : (p.tick env).Local := ⟨hlocal.begin, hlocal.trying, hlocal.failing⟩
  have hstep := hmove.step.1
  refine ⟨hmove.local hticked, hmove.tracks htracks, fun hpc' => ?_⟩
  have hprogress : ∀ {st e}, p.pc.local = some st → ((p.tick env).raise e).pc ≠ .releasing := by
    intro st e hst
    have hin : (p.tick env).status.inProgress = true := by
      rw [hticked.trying st hst]
      exact WorkerPc.local_inProgress hst
    rcases Worker.raise_cases hin e with heq | ⟨release, heq⟩ <;> rw [heq] <;> simp
  cases hmove with
  | goes next hgoes =>
      obtain rfl : next = .releasing := hpc'
      cases hgoes with
      | along next st hst hnext hquiet => cases hnext
  | raised e s' st hst hwrote => exact absurd hpc' (hprogress hst)
  | kept next s' st hst hnext hquiet hwrote =>
      obtain rfl : next = .releasing := hpc'
      cases hnext
  | turned target next v r s' hturns hok =>
      obtain rfl : next = .releasing := hpc'
      generalize (p.tick env).pc = pc at hturns
      cases hturns
  | completed result r s' hpc hok => cases hpc'
  | captured result rid s' hpc hrid hcall => cases hpc'
  | failed errorCode release s' hpc hcall =>
      have hpc : p.pc = .failing errorCode release := hpc
      cases release with
      | false => cases hpc'
      | true =>
          -- the write lands, or the job had failed before
          have hcode := (hlocal.failing _ _ hpc).2 rfl
          rw [hcode] at hpc hcall
          simp only [failuresLand, hp, hpc, Option.any_eq_true, Bool.or_eq_true] at hgood
          obtain ⟨j, hj, hneg | hlands⟩ := hgood
          · exact negative_step hstep ⟨j, hj, hneg⟩
          · obtain ⟨j', hj', hfailed⟩ := Worker.fail_lands hlocal hpc hj hlands
            have hstore : s'.jobs.get p.record.jobId = some j' := by
              rw [← hcall]
              exact hj'
            exact ⟨j', hstore, by rw [hfailed]; rfl⟩
  | released rid s' hpc hrid hcall => cases hpc'

/-- A transaction of a resolution comes to a release with a failed job. -/
theorem ResolveMove.failed {db : DbOutcome} {now : Nat} {q : ResolveRequest}
    {pc : ResolvePc} {outcome : Option (Option ResolvePc)}
    (h : ResolveMove db now q s pc outcome s') {rid : Nat}
    (hnext : outcome = some (some (.release rid))) : q.Failed rid s' := by
  cases h with
  | requested _ _ hwrote hjob =>
      obtain ⟨rid', j', heq, hj', hstatus, hrid, -⟩ := hjob _ hnext
      obtain rfl := ResolvePc.release.inj heq
      exact ⟨j', hj', hstatus, hrid⟩
  | released rid' _ _ hrow hfinish => cases hfinish _ hnext
  | finished _ _ hwrote hnot => exact absurd hnext (hnot _)

theorem RecoveryMove.justified {env : Env} {p p' : Recovery}
    (hmove : RecoveryMove cfg env p s p' s') : (Party.recovery p').Justified s' := by
  intro rid hpc
  cases hmove with
  | recovered hp =>
      unfold recoverStep at hpc
      split at hpc
      · cases hpc
      · split at hpc
        · dsimp only at hpc
          split at hpc <;> cases hpc
        · cases hpc
        · cases hpc
  | resolved pc outcome s' hp hmove =>
      have hnext : outcome = some (some (.release rid)) := by
        rcases outcome with _ | _ | next
        · cases hpc
        · cases hpc
        · obtain rfl : next = .release rid := RecoveryPc.resolve.inj hpc
          rfl
      exact hmove.failed hnext
  | wrote p' s' hfence hquiet hnot hwrote =>
      rw [hpc] at hquiet
      cases hquiet
  | completed result r s' hok => cases hpc
  | captured next rid' s' hquiet hnot hp hrid hrow =>
      obtain rfl : next = .resolve (.release rid) := hpc
      cases hquiet

theorem captureHold_expired {book : Catalog.PriceBook} {now tenantId rid : Nat}
    {usage : Option Billing.BillingUsage} {e : GenerationError}
    (h : captureHold book now tenantId rid usage s = .error e)
    (he : e.isReservationExpired = true) :
    ∃ r, s.billing.reservations.get rid = some r ∧ r.expiresAt ≤ now := by
  rw [captureHold, billingCall, mapError_eq_error] at h
  obtain ⟨e₀, he₀, rfl⟩ := h
  cases hcap : Billing.capture now .none (s.sources book)
      { tenantId, reservationId := rid, usage } s.billing with
  | ok x => rw [hcap] at he₀; cases he₀
  | error b =>
      rw [hcap] at he₀
      obtain rfl : b = e₀ := Except.error.inj he₀
      cases b with
      | conflict code message =>
          simp only [GenerationError.isReservationExpired, beq_iff_eq] at he
          subst he
          obtain ⟨r, hr, -, hle⟩ := Billing.capture_raises _ hcap message rfl
          exact ⟨r, hr, hle⟩
      | _ => cases he

theorem ReconcilerMove.justified {env : Env} {p p' : Reconciler}
    (h : (∀ row ∈ p.rows, row.Stands s)) (hmove : ReconcilerMove cfg env p s p' s')
    (hstep : JobsStep uuid token sweep s.jobs s'.jobs) :
    (Party.reconciler p').Justified s' := by
  have hrows : p'.rows ⊆ p.rows → ∀ row ∈ p'.rows, row.Stands s' :=
    fun hsub row hrow => (h row (hsub hrow)).step hstep
  cases hmove with
  | idle hsub hquiet => exact ⟨hrows hsub, fun row hpc => absurd hpc (hquiet row)⟩
  | expired row hpc hsub hrow hstatus hclock hnext hraises =>
      refine ⟨hrows hsub, fun row' hpc' => ?_⟩
      obtain rfl := ReconcilerPc.releaseExpired.inj (hnext.symm.trans hpc')
      obtain ⟨e, he, hexpired⟩ := hraises
      rw [hclock]
      exact ⟨h row hrow, hstatus, captureHold_expired he hexpired⟩
  | captured row s' hsub hquiet hhold =>
      exact ⟨hrows hsub, fun row hpc => absurd hpc (hquiet row)⟩
  | released row s' hpc hsub hquiet hhold =>
      exact ⟨hrows hsub, fun row hpc => absurd hpc (hquiet row)⟩
  | marked s' hsub hquiet hwrote =>
      exact ⟨hrows hsub, fun row hpc => absurd hpc (hquiet row)⟩

/-- The rows of a fresh pass stand. -/
theorem HoldInv.settlementRows (h : HoldInv s) (limit : Nat) :
    ∀ row ∈ settlementRows limit s, row.Stands s := by
  intro row hrow
  obtain ⟨e, he, hrow⟩ := List.mem_filterMap.mp (List.mem_of_mem_take hrow)
  unfold settlementRow at hrow
  split at hrow
  case isFalse => cases hrow
  next hgen =>
  simp only [Option.bind_eq_bind, Option.bind_eq_some_iff, Option.filter_eq_some_iff,
    Bool.and_eq_true] at hrow
  obtain ⟨j, ⟨hj, -, hterminal⟩, hrow⟩ := hrow
  obtain rfl := Option.some.inj hrow
  obtain ⟨j', hj', hrid⟩ := h.sourced e.1 e.2 (Table.mem_entries.mp he) hgen.1
  obtain rfl := Option.some.inj (hj.symm.trans hj')
  exact ⟨j, hj, rfl, hterminal, hrid⟩

theorem ReleaseInv.step (h : ReleaseInv w) (hmove : WorldMove cfg w a w')
    (hgood : failuresLand w a = true) : ReleaseInv w' := by
  refine ⟨h.hold.step hmove, fun i q hq => ?_⟩
  have hold : w.parties.get i = some q → q.Justified w'.store :=
    fun hi => (h.party i q hi).step h.hold hmove
  obtain ⟨token, hstep⟩ := hmove.step
  cases hmove with
  | idle => exact hold hq
  | accepted => exact hold hq
  | cancelled => exact hold hq
  | swept => exact hold hq
  | claimLost => exact hold hq
  | renewed => exact hold hq
  | claimed _ now workerId r j s' hact htaken =>
      rcases World.spawn_cases (w := w.write s') hq with ⟨-, rfl⟩ | hi
      · refine ⟨⟨fun _ => htaken.reserved, ?_, ?_⟩, ?_, ?_⟩
        · intro st hlocal
          cases hlocal
        · intro code release hpc
          cases hpc
        on_goal 2 =>
          intro hpc
          cases hpc
        exact ⟨r.job, by simp [World.write, World.spawn, htaken.written, htaken.found,
          Worker.start], rfl, rfl⟩
      · exact hold hi
  | reclaimed _ now r j s' p hact htaken hp =>
      rcases World.spawn_cases (w := w.write s') hq with ⟨-, rfl⟩ | hi
      · intro rid hpc
        unfold Recovery.start at hp
        split at hp
        · cases hp
        · obtain rfl := Option.some.inj hp
          cases hpc
      · exact hold hi
  | asked now tenantId jobId subject reason q' hq' =>
      rcases World.spawn_cases hq with ⟨-, rfl⟩ | hi
      · intro rid hpc
        cases hpc
      · exact hold hi
  | passed now limit =>
      rcases World.spawn_cases hq with ⟨-, rfl⟩ | hi
      · refine ⟨h.hold.settlementRows limit, ?_⟩
        intro row hpc
        cases hpc
      · exact hold hi
  | worked pid env p p' s' hp hmove =>
      rcases World.update_cases (w := w.write s') hq with ⟨rfl, rfl⟩ | ⟨-, hi⟩
      · exact hmove.justified (h.party i _ hp) hp hgood
      · exact hold hi
  | recovered pid env p p' s' hp hmove =>
      rcases World.update_cases (w := w.write s') hq with ⟨rfl, rfl⟩ | ⟨-, hi⟩
      · exact hmove.justified
      · exact hold hi
  | operated pid env p pc outcome s' hp hpc hmove =>
      rcases World.update_cases (w := w.write s') hq with ⟨rfl, rfl⟩ | ⟨-, hi⟩
      · intro rid hnext
        refine hmove.failed ?_
        rcases outcome with _ | _ | next
        · cases hnext
        · cases hnext
        · exact congrArg some hnext
      · exact hold hi
  | rested pid env p hp hpc =>
      rcases World.update_cases (w := w.write w.store) hq with ⟨rfl, rfl⟩ | ⟨-, hi⟩
      · intro rid hnext
        rw [show (p.pc = some (ResolvePc.release rid)) from hnext] at hpc
        cases hpc
      · exact hold hi
  | reconciled pid env p p' s' hp hmove =>
      rcases World.update_cases (w := w.write s') hq with ⟨rfl, rfl⟩ | ⟨-, hi⟩
      · exact ReconcilerMove.justified (p := p.tick env) (h.party i _ hp).1 hmove hstep
      · exact hold hi

theorem releaseInv_run (h : WorldOpening w) {as : List Act}
    (hgood : RunAll (worldStep cfg) (fun w a => failuresLand w a = true) w as) :
    ReleaseInv (run (worldStep cfg) w as) :=
  run_invariant_of (fun w a hgood hw => hw.step (worldStep_cases cfg w a) hgood) hgood
    h.releaseInv

-- ============================================================== the law

/-- From `w` to `w'` a pending hold of a job is released only on a
definitive outcome: the job is failed, cancelled or expired, or it has
succeeded and the hold is past its expiry at the time of the release. -/
def DefinitiveRelease (w w' : World) : Prop :=
  ∀ rid r r', w.store.billing.reservations.get rid = some r →
    r.sourceType = "generation" → r.status = .pending →
    w'.store.billing.reservations.get rid = some r' → r'.status = .released →
    ∃ j, w.store.jobs.get r.sourceId = some j
      ∧ (j.status = .failed ∨ j.status = .cancelled ∨ j.status = .expired
        ∨ (j.status = .succeeded ∧ ∃ t, r'.releasedAt = some t ∧ r.expiresAt ≤ t))

theorem GenerationStatus.negative_iff {st : GenerationStatus} :
    st.negative = true ↔ st = .failed ∨ st = .cancelled ∨ st = .expired := by
  cases st <;> simp [negative]

/-- Reservations that did not change release nothing. -/
theorem DefinitiveRelease.of_same
    (h : w'.store.billing.reservations = w.store.billing.reservations) :
    DefinitiveRelease w w' := by
  intro rid r r' hr hgen hpending hr' hreleased
  rw [h] at hr'
  obtain rfl := Option.some.inj (hr.symm.trans hr')
  rw [hpending] at hreleased
  cases hreleased

theorem DefinitiveRelease.of_captured {now tenantId rid : Nat}
    (h : CapturedHold now tenantId rid w.store w'.store) : DefinitiveRelease w w' := by
  rcases h.row with hsame | ⟨x, amount, -, -, -, hrep⟩
  · exact .of_same hsame
  · intro rid' r r' hr hgen hpending hr' hreleased
    rcases hrep.cases hr' with ⟨rfl, rfl⟩ | ⟨-, hold⟩
    · cases hreleased
    · obtain rfl := Option.some.inj (hr.symm.trans hold)
      rw [hpending] at hreleased
      cases hreleased

/-- A release of the hold of a job whose outcome is definitive. -/
theorem DefinitiveRelease.of_released {now tenantId rid id : Nat}
    (hinv : HoldInv w.store) (h : ReleasedHold now tenantId rid w.store w'.store)
    (hj : w.store.jobs.get id = some j) (hrid : j.billingReservationId = some rid)
    (houtcome : j.status.negative = true ∨ (j.status = .succeeded
      ∧ ∃ r, w.store.billing.reservations.get rid = some r ∧ r.expiresAt ≤ now)) :
    DefinitiveRelease w w' := by
  rcases h.row with hsame | ⟨x, -, -, hrep⟩
  · exact .of_same hsame
  · intro rid' r r' hr hgen hpending hr' hreleased
    rcases hrep.cases hr' with ⟨rfl, rfl⟩ | ⟨-, hold⟩
    · obtain rfl := Option.some.inj (hrep.old.symm.trans hr)
      obtain ⟨-, hid, -⟩ := hinv.hold hj hrid hr
      refine ⟨j, by rw [hid, hj], ?_⟩
      rcases houtcome with hneg | ⟨hsucceeded, y, hy, hle⟩
      · rcases GenerationStatus.negative_iff.mp hneg with h | h | h
        · exact Or.inl h
        · exact Or.inr (Or.inl h)
        · exact Or.inr (Or.inr (Or.inl h))
      · obtain rfl := Option.some.inj (hr.symm.trans hy)
        exact Or.inr (Or.inr (Or.inr ⟨hsucceeded, now, rfl, hle⟩))
    · obtain rfl := Option.some.inj (hr.symm.trans hold)
      rw [hpending] at hreleased
      cases hreleased

theorem DefinitiveRelease.of_resolved (hinv : HoldInv w.store) {db : DbOutcome}
    {now : Nat} {q : ResolveRequest} {pc : ResolvePc}
    {outcome : Option (Option ResolvePc)}
    (hknown : ∀ rid, pc = .release rid → q.Failed rid w.store)
    (h : ResolveMove db now q w.store pc outcome w'.store) : DefinitiveRelease w w' := by
  cases h with
  | requested _ _ hwrote hnext => exact .of_same hwrote.reservations
  | released rid _ _ hrow hnext =>
      obtain ⟨j, hj, hstatus, hrid⟩ := hknown rid rfl
      exact .of_released hinv hrow hj hrid (Or.inl (by rw [hstatus]; rfl))
  | finished _ _ hwrote hnext => exact .of_same hwrote.reservations

theorem ReleaseInv.definitive (h : ReleaseInv w) (hmove : WorldMove cfg w a w') :
    DefinitiveRelease w w' := by
  cases hmove with
  | idle => exact .of_same rfl
  | accepted now catalog tenantId actorUserId request requestHash s' j res hnew =>
      obtain ⟨-, -, b, hins, -⟩ := h.hold.fresh_hold hnew
      intro rid r r' hr hgen hpending hr' hreleased
      have hkept : s'.billing.reservations.get rid = some r := by
        rw [hins]
        exact Table.get_insert_of_some hr b
      obtain rfl := Option.some.inj (hkept.symm.trans hr')
      rw [hpending] at hreleased
      cases hreleased
  | cancelled now tenantId actorUserId jobId s' hwrote => exact .of_same hwrote.reservations
  | swept now staleSeconds limit locked s' hswept => exact .of_same hswept.reservations
  | claimed _ now workerId r j s' hact htaken =>
      exact .of_same (congrArg (·.billing.reservations) htaken.written)
  | claimLost _ r j s' hact hclaimed =>
      exact .of_same (congrArg (·.billing.reservations) hclaimed.written)
  | reclaimed _ now r j s' p hact htaken hp =>
      exact .of_same (congrArg (·.billing.reservations) htaken.written)
  | asked now tenantId jobId subject reason q hq => exact .of_same rfl
  | passed now limit => exact .of_same rfl
  | renewed pid now db p s' hp hwrote => exact .of_same hwrote.reservations
  | worked pid env p p' s' hp hmove =>
      obtain ⟨hlocal, ⟨j, hj, htenant, hbilling⟩, hreleasing⟩ := h.party pid _ hp
      cases hmove with
      | goes next hgoes => exact .of_same rfl
      | raised e s' st hpc hwrote => exact .of_same hwrote.reservations
      | kept next s' st hpc hnext hq hwrote => exact .of_same hwrote.reservations
      | turned target next v r s' hturns hok =>
          exact .of_same (Worker.transition_wrote hok).reservations
      | completed result r s' hpc hok =>
          obtain ⟨-, -, -, -, -, hwrote⟩ := Worker.complete_ok hok
          exact .of_same hwrote.reservations
      | captured result rid s' hpc hrid hcall => exact .of_captured (captureHold_moved hcall)
      | failed errorCode release s' hpc hcall =>
          rcases attempt_store hcall with rfl | ⟨r, hr⟩
          · exact .of_same rfl
          · exact .of_same (Worker.transition_wrote hr).reservations
      | released rid s' hpc hrid hcall =>
          obtain ⟨j', hj', hneg⟩ := hreleasing hpc
          obtain rfl := Option.some.inj (hj.symm.trans hj')
          exact .of_released h.hold (releaseHold_moved hcall) hj (hbilling.trans hrid)
            (Or.inl hneg)
  | recovered pid env p p' s' hp hmove =>
      cases hmove with
      | recovered hpc => exact .of_same rfl
      | resolved pc outcome s' hpc hmove =>
          refine .of_resolved h.hold (fun rid hrid => ?_) hmove
          subst hrid
          exact h.party pid _ hp rid hpc
      | wrote p' s' hfence hq hnot hwrote => exact .of_same hwrote.reservations
      | completed result r s' hok =>
          obtain ⟨-, -, -, -, -, hwrote⟩ := complete_ok hok
          exact .of_same hwrote.reservations
      | captured next rid s' hq hnot hpc hrid hrow => exact .of_captured hrow
  | operated pid env p pc outcome s' hp hpc hmove =>
      refine .of_resolved h.hold (fun rid hrid => ?_) hmove
      subst hrid
      exact h.party pid _ hp rid hpc
  | rested pid env p hp hpc => exact .of_same rfl
  | reconciled pid env p p' s' hp hmove =>
      obtain ⟨hrows, hexpired⟩ := h.party pid _ hp
      cases hmove with
      | idle hsub hq => exact .of_same rfl
      | expired row hpc hsub hrow hstatus hclock hnext hraises => exact .of_same rfl
      | captured row s' hsub hq hhold => exact .of_captured hhold
      | released row s' hpc hsub hq hhold =>
          rcases hpc with ⟨-, hrow, hstatus⟩ | hpc
          · obtain ⟨j, hj, hst, hterminal, hrid⟩ := hrows row hrow
            refine .of_released h.hold hhold hj hrid (Or.inl ?_)
            rw [hst]
            revert hstatus hterminal
            cases row.status <;> decide
          · obtain ⟨⟨j, hj, hst, -, hrid⟩, hsucceeded, r, hr, hle⟩ := hexpired row hpc
            refine .of_released h.hold hhold hj hrid (Or.inr ⟨hst.trans hsucceeded, r, hr, ?_⟩)
            exact le_trans hle (Nat.le_add_right _ _)
      | marked s' hsub hq hwrote => exact .of_same hwrote.reservations

/-- In every run in which the failure writes of workers that go on to
release land, a hold is released on a definitive outcome only. -/
theorem hold_released_on_definitive_outcome {cfg : Config} {w : World}
    (h : WorldOpening w) (as : List Act) (a : Act)
    (hgood : RunAll (worldStep cfg) (fun w a => failuresLand w a = true) w as) :
    DefinitiveRelease (run (worldStep cfg) w as) (run (worldStep cfg) w (as ++ [a])) := by
  rw [run_concat]
  exact (releaseInv_run h hgood).definitive (worldStep_cases cfg _ a)

/-- The provider refuses the submission; the worker fails the job. -/
def refusedRun : List Act :=
  let refused := Exchange.answered { status := 400, headers := {} } none
  [sampleAccept, sampleClaim] ++ List.replicate 5 sampleWork
    ++ [.work 0 { sampleEnv with answers := { sampleEnv.answers with video := refused } },
        sampleWork]

theorem hold_released_on_definitive_outcome_refused :
    ((run (worldStep sampleConfig) sampleWorld
        (refusedRun ++ [sampleWork])).store.billing.reservations.get 0).map (·.status)
        = some .released
      ∧ DefinitiveRelease (run (worldStep sampleConfig) sampleWorld refusedRun)
        (run (worldStep sampleConfig) sampleWorld (refusedRun ++ [sampleWork])) :=
  ⟨by decide +kernel, hold_released_on_definitive_outcome sampleWorld_opening refusedRun
    sampleWork (by decide +kernel)⟩

/-- The sweep finds a `running` job whose lease has run out; the worker
wakes up, and its transition and its failure write find the lease gone. -/
def lostLeaseRun : List Act :=
  [sampleAccept, sampleClaim] ++ List.replicate 12 sampleWork
    ++ [.sweep 1000000000 60 50 fun _ => false, sampleWork, sampleWork]

/-- The hold of a `submitted_unknown` job is released. -/
theorem hold_released_while_unknown : ¬ ∀ (w : World) (as : List Act) (a : Act),
    WorldOpening w → DefinitiveRelease (run (worldStep sampleConfig) w as)
      (run (worldStep sampleConfig) w (as ++ [a])) := by
  intro hall
  have hbefore : ((run (worldStep sampleConfig) sampleWorld
      lostLeaseRun).store.billing.reservations.get 0).map
      (fun r => (r.sourceType, r.sourceId, r.status)) = some ("generation", 0, .pending) := by
    decide +kernel
  have hafter : ((run (worldStep sampleConfig) sampleWorld
      (lostLeaseRun ++ [sampleWork])).store.billing.reservations.get 0).map (·.status)
      = some .released := by decide +kernel
  have hjob : ((run (worldStep sampleConfig) sampleWorld lostLeaseRun).store.jobs.get
      0).map (·.status) = some .submittedUnknown := by decide +kernel
  obtain ⟨r, hr, hrow⟩ := Option.map_eq_some_iff.mp hbefore
  obtain ⟨r', hr', hreleased⟩ := Option.map_eq_some_iff.mp hafter
  simp only [Prod.mk.injEq] at hrow
  obtain ⟨j, hj, hstatus⟩ := hall sampleWorld lostLeaseRun sampleWork sampleWorld_opening 0
    r r' hr hrow.1 hrow.2.2 hr' hreleased
  rw [hrow.2.1] at hj
  rw [hj, Option.map_some, Option.some.injEq] at hjob
  rw [hjob] at hstatus
  simp at hstatus

end Mosaic.Generation
