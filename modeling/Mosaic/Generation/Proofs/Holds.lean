/-
Jobs, their holds and what the processes know of them.

These invariants hold in every run: a job and its reservation point at
each other (`HoldInv`), the local job of a worker is where its program
counter says and names the durable job's hold (`Worker.Local`,
`Tracks`), and the rows a billing pass selected are still what they were
(`SettlementRow.Stands`).
-/
import Mosaic.Generation.Proofs.Submission

namespace Mosaic.Generation

open Lib Providers

variable {cfg : Config} {w w' : World} {s s' : Store} {a : Act} {uuid : Nat}
  {token : Option Nat} {sweep : Bool} {j j' : GenerationJob}

-- ================================================================ local

/-- The local status of a worker follows its counter. -/
structure Worker.Local (p : Worker) : Prop where
  begin : p.pc = .begin → p.status = .reserved
  trying : ∀ st, p.pc.local = some st → p.status = st
  failing : ∀ errorCode release, p.pc = .failing errorCode release →
    p.status.inProgress = true
      ∧ (release = true → errorCode = "GENERATION_EXECUTION_FAILED")

theorem WorkerPc.local_inProgress {pc : WorkerPc} {st : GenerationStatus}
    (h : pc.local = some st) : st.inProgress = true := by
  cases pc <;> simp only [WorkerPc.local, Option.some.injEq, reduceCtorEq] at h <;>
    subst h <;> rfl

/-- An exception of the `try` block leads into `_fail`. -/
theorem Worker.raise_cases {p : Worker} (h : p.status.inProgress = true)
    (e : ExecuteError) :
    p.raise e = { p with pc := .failing "GENERATION_SUBMITTED_UNKNOWN" false }
      ∨ ∃ release,
        p.raise e = { p with pc := .failing "GENERATION_EXECUTION_FAILED" release } := by
  unfold Worker.raise
  dsimp only
  split
  · exact Or.inl rfl
  · exact Or.inr ⟨_, rfl⟩

namespace Worker.Local

variable {p : Worker}

/-- A counter that says nothing about the status. -/
theorem idle (p : Worker) (next : WorkerPc) (hnone : next.local = none)
    (hbegin : next ≠ .begin)
    (hfailing : ∀ errorCode release, next ≠ .failing errorCode release) :
    Worker.Local { p with pc := next } := by
  refine ⟨fun h => absurd h hbegin, fun st hst => ?_, fun c r h => absurd h (hfailing c r)⟩
  rw [hnone] at hst
  cases hst

/-- A counter of the `try` block. -/
theorem along (p : Worker) {next : WorkerPc} {st : GenerationStatus}
    (hnext : next.local = some st) (hstatus : p.status = st) :
    Worker.Local { p with pc := next } := by
  constructor
  · intro h
    have hpc : next = .begin := h
    rw [hpc] at hnext
    cases hnext
  · intro st' hst'
    exact hstatus.trans (Option.some.inj (hnext.symm.trans hst'))
  · intro c r h
    have hpc : next = .failing c r := h
    rw [hpc] at hnext
    cases hnext

/-- The counter of `_fail`. -/
theorem fails (p : Worker) {errorCode : String} {release : Bool}
    (hprogress : p.status.inProgress = true)
    (hcode : release = true → errorCode = "GENERATION_EXECUTION_FAILED") :
    Worker.Local { p with pc := .failing errorCode release } := by
  constructor
  · exact nofun
  · exact nofun
  · intro c r h
    obtain ⟨rfl, rfl⟩ := WorkerPc.failing.inj h
    exact ⟨hprogress, hcode⟩

end Worker.Local

/-- A step keeps the local status in place. -/
theorem WorkerMove.local {env : Env} {p p' : Worker} (h : WorkerMove cfg env p s p' s')
    (hp : p.Local) : p'.Local := by
  have hended : ∀ q : Worker, Worker.Local { q with pc := .ended } :=
    fun q => .idle q .ended rfl (by simp) (by simp)
  cases h with
  | goes next hgoes =>
      cases hgoes with
      | dismissed hpc => exact hended p
      | unpaid hpc hstatus => exact .fails p (by rw [hstatus]; rfl) nofun
      | begun hpc hstatus => exact .along p rfl hstatus
      | along next st hpc hnext hquiet => exact .along p hnext (hp.trying st hpc)
      | settled hpc => exact hended p
      | ended hpc => exact hended p
  | raised e s' st hpc hwrote =>
      have hprogress : p.status.inProgress = true := by
        rw [hp.trying st hpc]
        exact WorkerPc.local_inProgress hpc
      rcases Worker.raise_cases hprogress e with heq | ⟨release, heq⟩
      · rw [heq]
        exact .fails p hprogress nofun
      · rw [heq]
        exact .fails p hprogress fun _ => rfl
  | kept next s' st hpc hnext hquiet hwrote => exact .along p hnext (hp.trying st hpc)
  | turned target next v r s' hturns hok =>
      obtain ⟨f, j, -, -, -, -, -, rfl, -⟩ := Worker.transition_ok hok
      generalize p.pc = pc at hturns
      cases hturns with
      | requeue => exact hended { p with record := _ }
      | toQueued => exact .along { p with record := _ } rfl rfl
      | toSubmitted ports => exact .along { p with record := _ } rfl rfl
      | toRunning result => exact .along { p with record := _ } rfl rfl
      | toStoring result => exact .along { p with record := _ } rfl rfl
  | completed result r s' hpc hok =>
      exact .idle { p with record := r } (.capture result) rfl (by simp) (by simp)
  | captured result rid s' hpc hrid hcall => exact hended p
  | failed errorCode release s' hpc hcall =>
      cases release
      · exact hended p
      · exact .idle p .releasing rfl (by simp) (by simp)
  | released rid s' hpc hrid hcall => exact hended p

/-- The local record names the tenant and the hold of the durable job. -/
def Tracks (r : GenerationRecord) (s : Store) : Prop :=
  ∃ j, s.jobs.get r.jobId = some j ∧ j.tenantId = r.job.tenantId
    ∧ j.billingReservationId = r.job.billingReservationId

theorem Tracks.step {r : GenerationRecord} (h : Tracks r s)
    (hstep : JobsStep uuid token sweep s.jobs s'.jobs) : Tracks r s' := by
  obtain ⟨j, hj, htenant, hrid⟩ := h
  obtain ⟨j', hj', hmove⟩ := hstep.old _ j hj
  exact ⟨j', hj', hmove.frame.1.trans htenant, hmove.frame.2.trans hrid⟩

/-- A step of a worker. -/
theorem WorkerMove.tracks {env : Env} {p p' : Worker} (h : WorkerMove cfg env p s p' s')
    (hp : Tracks p.record s) : Tracks p'.record s' := by
  have hkept := hp.step h.step.1
  cases h with
  | raised e s' st hpc hwrote =>
      have hrecord : (p.raise e).record = p.record := by
        unfold Worker.raise
        dsimp only
        split
        · rfl
        · split <;> rfl
      rw [hrecord]
      exact hkept
  | turned target next v r s' hturns hok =>
      obtain ⟨f, j, -, hj, -, -, -, rfl, rfl⟩ := Worker.transition_ok hok
      exact ⟨_, by simp [Store.setJob, hj], rfl, rfl⟩
  | completed result r s' hpc hok =>
      obtain ⟨j, hj, -, rfl, hjobs, -⟩ := Worker.complete_ok hok
      exact ⟨_, by rw [hjobs]; simp [Store.setJob, hj], rfl, rfl⟩
  | _ => exact hkept

-- ================================================================ holds

/-- A job and its hold point at each other. -/
structure HoldInv (s : Store) : Prop where
  held : ∀ id j, s.jobs.get id = some j → ∃ rid r, j.billingReservationId = some rid
    ∧ s.billing.reservations.get rid = some r ∧ r.sourceType = "generation"
    ∧ r.sourceId = id ∧ r.tenantId = j.tenantId
  sourced : ∀ rid r, s.billing.reservations.get rid = some r →
    r.sourceType = "generation" →
    ∃ j, s.jobs.get r.sourceId = some j ∧ j.billingReservationId = some rid

/-- The hold of a job, found from either side. -/
theorem HoldInv.hold (h : HoldInv s) {id rid : Nat} {r : Billing.BalanceReservation}
    (hj : s.jobs.get id = some j) (hrid : j.billingReservationId = some rid)
    (hr : s.billing.reservations.get rid = some r) :
    r.sourceType = "generation" ∧ r.sourceId = id ∧ r.tenantId = j.tenantId := by
  obtain ⟨rid', r', hrid', hr', htype, hid, htenant⟩ := h.held id j hj
  obtain rfl := Option.some.inj (hrid.symm.trans hrid')
  obtain rfl := Option.some.inj (hr.symm.trans hr')
  exact ⟨htype, hid, htenant⟩

/-- What a settlement does to its row. -/
inductive HoldMove (r : Billing.BalanceReservation) : Billing.BalanceReservation → Prop
  | released (now : Nat) (hpending : r.status = .pending) :
      HoldMove r { r with status := .released, releasedAt := some now }
  | captured (now : Nat) (amount : Int) (hpending : r.status = .pending)
      (hlive : now < r.expiresAt) :
      HoldMove r { r with status := .committed, capturedAmountMinor := some amount
                          committedAt := some now }

/-- What an act is to the reservations. -/
inductive HoldsStep (s s' : Store) : Prop
  | same (h : s'.billing.reservations = s.billing.reservations)
      (hjobs : ∀ id j', s'.jobs.get id = some j' → ∃ j, s.jobs.get id = some j
        ∧ j'.billingReservationId = j.billingReservationId ∧ j'.tenantId = j.tenantId)
      (hkept : ∀ id j, s.jobs.get id = some j → ∃ j', s'.jobs.get id = some j'
        ∧ j'.billingReservationId = j.billingReservationId) : HoldsStep s s'
  | settled (rid : Nat) (r r' : Billing.BalanceReservation) (hjobs : s'.jobs = s.jobs)
      (h : Table.Replaced s.billing.reservations s'.billing.reservations rid r r')
      (hmove : HoldMove r r') : HoldsStep s s'

theorem HoldsStep.of_eq (hjobs : s'.jobs = s.jobs)
    (h : s'.billing.reservations = s.billing.reservations) : HoldsStep s s' :=
  .same h (fun _ j' hj' => ⟨j', hjobs ▸ hj', rfl, rfl⟩)
    fun _ j hj => ⟨j, hjobs ▸ hj, rfl⟩

theorem HoldsStep.of_moved (hjobs : JobsMoved uuid token sweep s.jobs s'.jobs)
    (h : s'.billing.reservations = s.billing.reservations) : HoldsStep s s' := by
  refine .same h (fun id j' hj' => ?_) fun id j hj => ?_
  · obtain ⟨j, hj, hmove⟩ := hjobs.new id j' hj'
    exact ⟨j, hj, hmove.frame.2, hmove.frame.1⟩
  · obtain ⟨j', hj', hmove⟩ := hjobs.old id j hj
    exact ⟨j', hj', hmove.frame.2⟩

theorem Wrote.holdsStep (h : Wrote token s s') : HoldsStep s s' :=
  .of_moved h.jobs h.reservations

theorem Claimed.holdsStep {r : GenerationRecord} (h : Claimed s s' r j) :
    HoldsStep s s' :=
  .of_moved h.jobs (congrArg (·.billing.reservations) h.written)

theorem ReleasedHold.holdsStep {now tenantId rid : Nat}
    (h : ReleasedHold now tenantId rid s s') : HoldsStep s s' := by
  rcases h.row with hsame | ⟨r, -, hpending, hrep⟩
  · exact .of_eq h.jobs hsame
  · exact .settled rid r _ h.jobs hrep (.released now hpending)

theorem CapturedHold.holdsStep {now tenantId rid : Nat}
    (h : CapturedHold now tenantId rid s s') : HoldsStep s s' := by
  rcases h.row with hsame | ⟨r, amount, -, hpending, hlive, hrep⟩
  · exact .of_eq h.jobs hsame
  · exact .settled rid r _ h.jobs hrep (.captured now amount hpending hlive)

theorem WorkerMove.holdsStep {env : Env} {p p' : Worker}
    (h : WorkerMove cfg env p s p' s') : HoldsStep s s' := by
  cases h with
  | goes next hgoes => exact .of_eq rfl rfl
  | raised e s' st hpc hwrote => exact hwrote.holdsStep
  | kept next s' st hpc hnext hquiet hwrote => exact hwrote.holdsStep
  | turned target next v r s' hturns hok =>
      exact (Worker.transition_wrote hok).holdsStep
  | completed result r s' hpc hok =>
      obtain ⟨-, -, -, -, -, hwrote⟩ := Worker.complete_ok hok
      exact hwrote.holdsStep
  | captured result rid s' hpc hrid hcall => exact (captureHold_moved hcall).holdsStep
  | failed errorCode release s' hpc hcall =>
      rcases attempt_store hcall with rfl | ⟨r, hr⟩
      · exact .of_eq rfl rfl
      · exact (Worker.transition_wrote hr).holdsStep
  | released rid s' hpc hrid hcall => exact (releaseHold_moved hcall).holdsStep

theorem ResolveMove.holdsStep {db : DbOutcome} {now : Nat} {q : ResolveRequest}
    {pc : ResolvePc} {outcome : Option (Option ResolvePc)}
    (h : ResolveMove db now q s pc outcome s') : HoldsStep s s' := by
  cases h with
  | requested _ _ hwrote hnext => exact hwrote.holdsStep
  | released rid _ _ hrow hnext => exact hrow.holdsStep
  | finished _ _ hwrote hnext => exact hwrote.holdsStep

/-- Every act but an acceptance leaves the holds or settles one. -/
theorem WorldMove.holdsStep (h : WorldMove cfg w a w') :
    (∃ now tenantId j res, NewJob now tenantId w.store w'.store j res)
      ∨ HoldsStep w.store w'.store := by
  cases h with
  | idle => exact Or.inr (.of_eq rfl rfl)
  | accepted now catalog tenantId actorUserId request requestHash s' j res hnew =>
      exact Or.inl ⟨now, tenantId, j, res, hnew⟩
  | cancelled now tenantId actorUserId jobId s' hwrote =>
      exact Or.inr hwrote.holdsStep
  | swept now staleSeconds limit locked s' hswept => exact Or.inr (.of_moved hswept.jobs hswept.reservations)
  | claimed _ now workerId r j s' hact htaken =>
      exact Or.inr htaken.toClaimed.holdsStep
  | claimLost _ r j s' hact hclaimed =>
      exact Or.inr hclaimed.holdsStep
  | reclaimed _ now r j s' p hact htaken hp =>
      exact Or.inr htaken.toClaimed.holdsStep
  | asked now tenantId jobId subject reason q hq => exact Or.inr (.of_eq rfl rfl)
  | passed now limit => exact Or.inr (.of_eq rfl rfl)
  | renewed pid now db p s' hp hwrote => exact Or.inr hwrote.holdsStep
  | worked pid env p p' s' hp hmove => exact Or.inr hmove.holdsStep
  | recovered pid env p p' s' hp hmove =>
      right
      cases hmove with
      | recovered hpc => exact .of_eq rfl rfl
      | resolved pc outcome s' hpc hmove => exact hmove.holdsStep
      | wrote p' s' hfence hquiet hnot hwrote => exact hwrote.holdsStep
      | completed result r s' hok =>
          obtain ⟨-, -, -, -, -, hwrote⟩ := complete_ok hok
          exact hwrote.holdsStep
      | captured next rid s' hquiet hnot hpc hrid hrow => exact hrow.holdsStep
  | operated pid env p pc outcome s' hp hpc hmove => exact Or.inr hmove.holdsStep
  | rested pid env p hp hpc => exact Or.inr (.of_eq rfl rfl)
  | reconciled pid env p p' s' hp hmove =>
      right
      cases hmove with
      | idle hrows hquiet => exact .of_eq rfl rfl
      | expired row hpc hrows hrow hstatus hclock hnext hraises => exact .of_eq rfl rfl
      | captured row s' hrows hquiet hhold => exact hhold.holdsStep
      | released row s' hpc hrows hquiet hhold => exact hhold.holdsStep
      | marked s' hrows hquiet hwrote => exact hwrote.holdsStep

theorem generation_normal :
    Billing.normalizeSourceType "generation" = .ok "generation" := by
  decide +kernel

/-- The hold of an acceptance is a new row, of the new job. -/
theorem HoldInv.fresh_hold (h : HoldInv s) {now tenantId : Nat}
    {res : Billing.ReservationResult} (hnew : NewJob now tenantId s s' j res) :
    s'.billing.usageRecords = s.billing.usageRecords
      ∧ res.reservationId = s.billing.reservations.nextId
      ∧ ∃ b, s'.billing.reservations = s.billing.reservations.insert b
        ∧ b.tenantId = tenantId ∧ b.sourceType = "generation"
        ∧ b.sourceId = s.jobs.nextId ∧ b.capturedAmountMinor = none
        ∧ b.status = .pending := by
  obtain ⟨price, hreserve⟩ := hnew.hold
  have hfree : Billing.findReservationBySource s.billing tenantId "generation"
      s.jobs.nextId = none := by
    cases hfind : Billing.findReservationBySource s.billing tenantId "generation"
        s.jobs.nextId with
    | none => rfl
    | some y =>
        obtain ⟨hget, hp⟩ := Table.find_some hfind
        simp only [Bool.and_eq_true, beq_iff_eq] at hp
        obtain ⟨j, hj, -⟩ := h.sourced y.1 y.2 hget hp.1.2
        have := Table.lt_nextId hj
        omega
  exact Billing.reserveInTransaction_fresh generation_normal hfree hreserve

theorem HoldInv.newJob (h : HoldInv s) {now tenantId : Nat}
    {res : Billing.ReservationResult} (hnew : NewJob now tenantId s s' j res) :
    HoldInv s' := by
  obtain ⟨-, hrid, b, hins, htenant, htype, hsource, -, -⟩ := h.fresh_hold hnew
  constructor
  · intro id x hx
    rw [hnew.jobs] at hx
    rw [hins]
    rcases Table.get_insert_cases hx with ⟨rfl, rfl⟩ | hx
    · exact ⟨_, b, hnew.reservation, by rw [hrid]; exact Table.get_insert_self _ _,
        htype, hsource, htenant.trans hnew.tenantId.symm⟩
    · obtain ⟨rid, r, hxr, hr, hrest⟩ := h.held id x hx
      exact ⟨rid, r, hxr, Table.get_insert_of_some hr b, hrest⟩
  · intro rid r hr hgen
    rw [hins] at hr
    rw [hnew.jobs]
    rcases Table.get_insert_cases hr with ⟨rfl, rfl⟩ | hr
    · exact ⟨j, by rw [hsource]; exact Table.get_insert_self _ _,
        by rw [hnew.reservation, hrid]⟩
    · obtain ⟨x, hx, hxr⟩ := h.sourced rid r hr hgen
      exact ⟨x, Table.get_insert_of_some hx j, hxr⟩

/-- A settlement keeps the source of its hold. -/
theorem HoldMove.frame {r r' : Billing.BalanceReservation} (h : HoldMove r r') :
    r'.sourceType = r.sourceType ∧ r'.sourceId = r.sourceId ∧ r'.tenantId = r.tenantId
      ∧ r'.expiresAt = r.expiresAt ∧ r.status = .pending := by
  cases h with
  | released now hpending => exact ⟨rfl, rfl, rfl, rfl, hpending⟩
  | captured now amount hpending hlive => exact ⟨rfl, rfl, rfl, rfl, hpending⟩

theorem HoldInv.step (h : HoldInv w.store) (hmove : WorldMove cfg w a w') :
    HoldInv w'.store := by
  rcases hmove.holdsStep with ⟨now, tenantId, j, res, hnew⟩ | hholds
  · exact h.newJob hnew
  cases hholds with
  | settled rid r r' hjobs hrep hmoved =>
      obtain ⟨htype, hsource, htenant, -, -⟩ := hmoved.frame
      constructor
      · intro id x hx
        rw [hjobs] at hx
        obtain ⟨rid', y, hxr, hy, hrest⟩ := h.held id x hx
        by_cases hrid : rid' = rid
        · subst hrid
          obtain rfl := Option.some.inj (hrep.old.symm.trans hy)
          exact ⟨_, r', hxr, hrep.new, htype ▸ hrest.1, hsource ▸ hrest.2.1,
            htenant ▸ hrest.2.2⟩
        · exact ⟨rid', y, hxr, by rw [hrep.other hrid, hy], hrest⟩
      · intro rid' y hy hgen
        rw [hjobs]
        rcases hrep.cases hy with ⟨rfl, rfl⟩ | ⟨-, hy⟩
        · rw [hsource]
          exact h.sourced rid' r hrep.old (htype ▸ hgen)
        · exact h.sourced rid' y hy hgen
  | same hsame hjobs hkept =>
      constructor
      · intro id x' hx'
        obtain ⟨x, hx, hrid, htenant⟩ := hjobs id x' hx'
        rw [hsame, hrid, htenant]
        exact h.held id x hx
      · intro rid r hr hgen
        rw [hsame] at hr
        obtain ⟨x, hx, hxr⟩ := h.sourced rid r hr hgen
        obtain ⟨x', hx', hrid⟩ := hkept _ x hx
        exact ⟨x', hx', hrid.trans hxr⟩

theorem WorldOpening.holdInv (h : WorldOpening w) : HoldInv w.store := by
  constructor
  · simp [h.jobs]
  · intro rid r hr hgen
    exact absurd hgen (h.reservations rid r hr)

end Mosaic.Generation
