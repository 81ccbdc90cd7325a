/-
What one act of the generation system does.

`WorldMove` is the inversion of `worldStep`: one constructor for each
thing that can have happened, with the world it leads to. `JobsStep` is
what every act is to the job table, whoever acted: each row moves by a
`JobMove`, and at most fresh accepted jobs appear.
-/
import Mosaic.Generation.Proofs.Steps

namespace Mosaic.Generation

open Lib Providers

variable {cfg : Config} {w w' : World} {s s' : Store} {a : Act} {uuid : Nat}
  {token : Option Nat} {sweep : Bool}

-- =========================================================== acceptance

/-- A job nobody has touched yet. -/
structure FreshJob (j : GenerationJob) : Prop where
  status : j.status = .accepted
  claimOwner : j.claimOwner = none
  leaseToken : j.leaseToken = none
  leaseExpiresAt : j.leaseExpiresAt = none
  fencingToken : j.fencingToken = 0
  deletedAt : j.deletedAt = none

/-- What an acceptance that was no replay did. -/
structure NewJob (now tenantId : Nat) (s s' : Store) (j : GenerationJob)
    (res : Billing.ReservationResult) : Prop where
  jobs : s'.jobs = s.jobs.insert j
  fresh : FreshJob j
  hold : ∃ price, Billing.reserveInTransaction now tenantId "generation" s.jobs.nextId
    price (after now (15 * 60)) s.billing = .ok (res, s'.billing)
  reservation : j.billingReservationId = some res.reservationId
  tenantId : j.tenantId = tenantId
  nextUuid : s'.nextUuid = s.nextUuid

theorem accept_ok {now tenantId actorUserId : Nat} {catalog : Catalog.CatalogRows}
    {book : Catalog.PriceBook} {request : CreateGenerationRequest} {requestHash : String}
    {x : AcceptedGeneration}
    (h : accept now catalog book tenantId actorUserId request requestHash s = .ok (x, s')) :
    s' = s ∨ ∃ j res, NewJob now tenantId s s' j res := by
  unfold accept at h
  split at h
  · simp only [bind_eq_ok, pure_eq_ok, Prod.mk.injEq] at h
    obtain ⟨-, -, -, -, -, rfl⟩ := h
    exact Or.inl rfl
  · simp only [acceptNew, bind_eq_ok, mapError_eq_ok, pure_eq_ok, Prod.mk.injEq] at h
    obtain ⟨route, -, decision, -, ⟨res, billing⟩, hres, rfl, rfl⟩ := h
    right
    exact ⟨_, res, { jobs := rfl, fresh := ⟨rfl, rfl, rfl, rfl, rfl, rfl⟩
                     hold := ⟨decision.price, hres⟩, reservation := rfl, tenantId := rfl
                     nextUuid := rfl }⟩

-- ================================================================= acts

/-- An act of the stall sweep. -/
def Act.sweeps : Act → Bool
  | .sweep _ _ _ _ => true
  | _ => false

/-- An act that claims a job. -/
def Act.claims : Act → Bool
  | .claim _ _ _ _ _ _ _ => true
  | .claimNext _ _ _ _ _ _ _ => true
  | .recover _ _ _ _ _ => true
  | _ => false

theorem Act.sweeps_of_claims (h : a.claims = true) : a.sweeps = false := by
  cases a <;> first | rfl | cases h

/-- The world after a step of a worker. -/
def World.worked (w : World) (cfg : Config) (pid : Nat) (env : Env) (p p' : Worker)
    (s' : Store) : World :=
  { (w.write s').update pid (.worker p') with
    executions := if p.pc.calls then w.executions ++ [p.record.jobId] else w.executions
    reports := if p.reports cfg env then w.reports ++ [p.record.jobId] else w.reports }

/-- And of a recovery. -/
def World.recovered (w : World) (cfg : Config) (pid : Nat) (env : Env)
    (p p' : Recovery) (s' : Store) : World :=
  { (w.write s').update pid (.recovery p') with
    reports := if p.reports cfg env then w.reports ++ [p.record.jobId] else w.reports }

/-- What one act can do. -/
inductive WorldMove (cfg : Config) (w : World) : Act → World → Prop
  | idle (a : Act) : WorldMove cfg w a w
  | accepted (now : Nat) (catalog : Catalog.CatalogRows) (tenantId actorUserId : Nat)
      (request : CreateGenerationRequest) (requestHash : String) (s' : Store)
      (j : GenerationJob) (res : Billing.ReservationResult)
      (hnew : NewJob now tenantId w.store s' j res) :
      WorldMove cfg w (.accept now catalog tenantId actorUserId request requestHash)
        (w.write s')
  | cancelled (now tenantId actorUserId jobId : Nat) (s' : Store)
      (hwrote : Wrote none w.store s') :
      WorldMove cfg w (.cancel now tenantId actorUserId jobId) (w.write s')
  | swept (now staleSeconds limit : Nat) (locked : Nat → Bool) (s' : Store)
      (hswept : Swept w.store s') :
      WorldMove cfg w (.sweep now staleSeconds limit locked) (w.write s')
  | claimed (a : Act) (now : Nat) (workerId : String) (r : GenerationRecord)
      (j : GenerationJob) (s' : Store) (hact : a.claims = true)
      (htaken : Taken w.store s' r j) :
      WorldMove cfg w a ((w.write s').spawn (.worker (Worker.start now workerId r)))
  | claimLost (a : Act) (r : GenerationRecord) (j : GenerationJob) (s' : Store)
      (hact : a.claims = true) (hclaimed : Claimed w.store s' r j) :
      WorldMove cfg w a (w.write s')
  | reclaimed (a : Act) (now : Nat) (r : GenerationRecord) (j : GenerationJob)
      (s' : Store) (p : Recovery) (hact : a.claims = true) (htaken : Retaken w.store s' r j)
      (hp : Recovery.start now r = some p) :
      WorldMove cfg w a ((w.write s').spawn (.recovery p))
  | asked (now tenantId jobId : Nat) (subject reason : String) (q : ResolveRequest)
      (hq : q.tenantId = tenantId ∧ q.jobId = jobId) :
      WorldMove cfg w (.resolve now tenantId jobId subject reason)
        { w.spawn (.operator { request := q, clock := now, pc := some .request }) with
          reports := w.reports ++ [jobId] }
  | passed (now limit : Nat) :
      WorldMove cfg w (.reconcile now limit)
        (w.spawn (.reconciler
          { rows := settlementRows limit w.store, clock := now, pc := .next }))
  | renewed (pid now : Nat) (db : DbOutcome) (p : Worker) (s' : Store)
      (hp : w.parties.get pid = some (.worker p)) (hwrote : Spared p.token w.store s') :
      WorldMove cfg w (.renew pid now db) (w.write s')
  | worked (pid : Nat) (env : Env) (p p' : Worker) (s' : Store)
      (hp : w.parties.get pid = some (.worker p))
      (hmove : WorkerMove cfg env (p.tick env) w.store p' s') :
      WorldMove cfg w (.work pid env) (w.worked cfg pid env p p' s')
  | recovered (pid : Nat) (env : Env) (p p' : Recovery) (s' : Store)
      (hp : w.parties.get pid = some (.recovery p))
      (hmove : RecoveryMove cfg env (p.tick env) w.store p' s') :
      WorldMove cfg w (.work pid env) (w.recovered cfg pid env p p' s')
  | operated (pid : Nat) (env : Env) (p : Operator) (pc : ResolvePc)
      (outcome : Option (Option ResolvePc)) (s' : Store)
      (hp : w.parties.get pid = some (.operator p)) (hpc : p.pc = some pc)
      (hmove : ResolveMove env.db (p.clock + env.elapsed) p.request w.store pc outcome s') :
      WorldMove cfg w (.work pid env) ((w.write s').update pid
        (.operator { p with clock := p.clock + env.elapsed, pc := outcome.join }))
  | rested (pid : Nat) (env : Env) (p : Operator)
      (hp : w.parties.get pid = some (.operator p)) (hpc : p.pc = none) :
      WorldMove cfg w (.work pid env) ((w.write w.store).update pid
        (.operator { p with clock := p.clock + env.elapsed }))
  | reconciled (pid : Nat) (env : Env) (p p' : Reconciler) (s' : Store)
      (hp : w.parties.get pid = some (.reconciler p))
      (hmove : ReconcilerMove cfg env (p.tick env) w.store p' s') :
      WorldMove cfg w (.work pid env) ((w.write s').update pid (.reconciler p'))

/-- Nobody enters `submitted` when nothing is written. -/
@[simp] theorem entered_self (s : Store) : entered s s = [] := by
  unfold entered
  rw [List.map_eq_nil_iff, List.filter_eq_nil_iff]
  intro e he
  rw [Table.mem_entries.mp he]
  simp

@[simp] theorem World.write_self (w : World) : w.write w.store = w := by
  simp [World.write]

/-- A call is a write of what it returns, or nothing. -/
theorem WorldMove.of_call {α : Type} {x : Except GenerationError (α × Store)}
    (h : ∀ y s', x = .ok (y, s') → WorldMove cfg w a (w.write s')) :
    WorldMove cfg w a (w.call x) := by
  unfold World.call
  split
  · next y => exact h y.1 y.2 rfl
  · exact .idle a

/-- A claim: nothing, a lost claim, or the process it starts. -/
theorem WorldMove.of_claim {db : DbOutcome}
    {x : Except GenerationError (Option GenerationRecord × Store)}
    {start : GenerationRecord → Option Party} (hact : a.claims = true)
    (h : ∀ r s', x = .ok (r, s') → (r = none ∧ s' = w.store)
      ∨ ∃ y j, r = some y ∧ Claimed w.store s' y j
        ∧ ∀ p, start y = some p → WorldMove cfg w a ((w.write s').spawn p)) :
    WorldMove cfg w a (w.claim db x start) := by
  unfold World.claim
  split
  · next r s' hcall =>
      obtain ⟨habsurd, -⟩ | ⟨y, hy, habsurd | hr⟩ := attempt_cases hcall
      · cases habsurd
      · cases habsurd
      · obtain rfl := Option.some.inj hr
        obtain ⟨habsurd, -⟩ | ⟨z, j, hz, hclaimed, hstart⟩ := h _ _ hy
        · cases habsurd
        · obtain rfl := Option.some.inj hz
          split
          · next p hp => exact hstart p hp
          · exact .claimLost a r j s' hact hclaimed
  · next s' _ hcall =>
      obtain ⟨-, rfl⟩ | ⟨y, hy, -⟩ := attempt_cases hcall
      · rw [World.write_self]
        exact .idle a
      · obtain ⟨-, rfl⟩ | ⟨z, j, -, hclaimed, -⟩ := h _ _ hy
        · rw [World.write_self]
          exact .idle a
        · exact .claimLost a z j s' hact hclaimed

/-- The inversion of a process step. -/
theorem World.work_cases {pid : Nat} {env : Env} {p : Party}
    (hp : w.parties.get pid = some p) :
    WorldMove cfg w (.work pid env) (w.work cfg pid env p) := by
  cases p with
  | worker p => exact .worked pid env p _ _ hp (workerStep_cases rfl)
  | recovery p => exact .recovered pid env p _ _ hp (recoveryStep_cases rfl)
  | operator p =>
      obtain ⟨request, clock, pc⟩ := p
      cases pc with
      | none => exact .rested pid env _ hp rfl
      | some pc => exact .operated pid env _ pc _ _ hp rfl (resolveStep_cases rfl)
  | reconciler p => exact .reconciled pid env p _ _ hp (reconcilerStep_cases rfl)

/-- The inversion of `worldStep`. -/
theorem worldStep_cases (cfg : Config) (w : World) (a : Act) :
    WorldMove cfg w a (worldStep cfg w a) := by
  cases a with
  | accept now catalog tenantId actorUserId request requestHash =>
      refine .of_call fun x s' hx => ?_
      rcases accept_ok hx with rfl | ⟨j, res, hnew⟩
      · rw [World.write_self]
        exact .idle _
      · exact .accepted now catalog tenantId actorUserId request requestHash s' j res hnew
  | cancel now tenantId actorUserId jobId =>
      exact .of_call fun _ s' hx =>
        .cancelled now tenantId actorUserId jobId s' (cancelAccepted_wrote hx)
  | sweep now staleSeconds limit locked =>
      exact .of_call fun _ s' hx =>
        .swept now staleSeconds limit locked s' (reconcileStalledOnce_swept hx)
  | claim now db locked tenantId jobId workerId leaseSeconds =>
      simp only [worldStep]
      apply WorldMove.of_claim rfl
      intro r s' hr
      rcases claimAccepted_ok hr with h | ⟨y, j, rfl, htaken⟩
      · exact Or.inl h
      · refine Or.inr ⟨y, j, rfl, htaken.toClaimed, ?_⟩
        rintro _ ⟨⟩
        exact .claimed _ now workerId y j s' rfl htaken
  | claimNext now db locked tenantId modalities workerId leaseSeconds =>
      simp only [worldStep]
      apply WorldMove.of_claim rfl
      intro r s' hr
      rcases claimNextAccepted_ok hr with h | ⟨y, j, rfl, htaken⟩
      · exact Or.inl h
      · refine Or.inr ⟨y, j, rfl, htaken.toClaimed, ?_⟩
        rintro _ ⟨⟩
        exact .claimed _ now workerId y j s' rfl htaken
  | recover now db locked workerId leaseSeconds =>
      simp only [worldStep]
      apply WorldMove.of_claim rfl
      intro r s' hr
      rcases claimPendingReconciliation_ok hr with h | ⟨y, j, rfl, htaken⟩
      · exact Or.inl h
      · refine Or.inr ⟨y, j, rfl, htaken.toClaimed, ?_⟩
        intro p hp
        obtain ⟨q, hq, rfl⟩ := Option.map_eq_some_iff.mp hp
        exact .reclaimed _ now y j s' q rfl htaken hq
  | resolve now tenantId jobId subject reason =>
      simp only [worldStep, World.resolve]
      split
      · exact .asked now tenantId jobId subject reason _ ⟨rfl, rfl⟩
      · exact .idle _
  | reconcile now limit =>
      simp only [worldStep]
      split
      · exact .passed now limit
      · exact .idle _
  | renew pid now db =>
      simp only [worldStep]
      split
      · next p hp =>
          unfold World.renew
          split
          · next p =>
              split
              · refine .renewed pid now db p _ hp ?_
                rcases attempt_store rfl with h | ⟨r, hr⟩
                · rw [h]
                  exact .refl _
                · exact (Worker.heartbeat_ok hr).2
              · exact .idle _
          · exact .idle _
      · exact .idle _
  | work pid env =>
      simp only [worldStep]
      split
      · next p hp => exact World.work_cases hp
      · exact .idle _

-- ================================================================ jobs

/-- What an act is to the job table. -/
structure JobsStep (uuid : Nat) (token : Option Nat) (sweep : Bool) (t t' : Table GenerationJob) :
    Prop where
  old : ∀ id j, t.get id = some j → ∃ j', t'.get id = some j' ∧ JobMove uuid token sweep j j'
  new : ∀ id j', t'.get id = some j' →
    (∃ j, t.get id = some j ∧ JobMove uuid token sweep j j') ∨ (t.get id = none ∧ FreshJob j')

theorem JobsMoved.step {t t' : Table GenerationJob} (h : JobsMoved uuid token sweep t t') :
    JobsStep uuid token sweep t t' :=
  ⟨h.old, fun id j' hj' => Or.inl (h.new id j' hj')⟩

/-- Tables that did not change. -/
theorem JobsStep.of_eq {t t' : Table GenerationJob} (h : t' = t) :
    JobsStep uuid token sweep t t' := by
  rw [h]
  exact (JobsMoved.refl t).step

theorem NewJob.step {now tenantId : Nat} {j : GenerationJob}
    {res : Billing.ReservationResult} (h : NewJob now tenantId s s' j res) :
    JobsStep uuid token sweep s.jobs s'.jobs := by
  rw [h.jobs]
  constructor
  · intro id x hx
    exact ⟨x, Table.get_insert_of_some hx j, .same⟩
  · intro id x hx
    rcases Table.get_insert_cases hx with ⟨rfl, rfl⟩ | hx
    · exact Or.inr ⟨Table.get_nextId _, h.fresh⟩
    · exact Or.inl ⟨x, hx, .same⟩

theorem WorkerMove.step {env : Env} {p p' : Worker} (h : WorkerMove cfg env p s p' s') :
    JobsStep s.nextUuid p.token false s.jobs s'.jobs ∧ s'.nextUuid = s.nextUuid := by
  cases h with
  | goes next hgoes => exact ⟨.of_eq rfl, rfl⟩
  | raised e s' st hpc hwrote => exact ⟨hwrote.jobs.step, hwrote.nextUuid⟩
  | kept next s' st hpc hnext hquiet hwrote => exact ⟨hwrote.jobs.step, hwrote.nextUuid⟩
  | turned target next v r s' hturns hok =>
      have hwrote := Worker.transition_wrote hok
      exact ⟨hwrote.jobs.step, hwrote.nextUuid⟩
  | completed result r s' hpc hok =>
      obtain ⟨-, -, -, -, -, hwrote⟩ := Worker.complete_ok hok
      exact ⟨hwrote.jobs.step, hwrote.nextUuid⟩
  | captured result rid s' hpc hrid hcall =>
      have hrow := captureHold_moved hcall
      exact ⟨.of_eq hrow.jobs, hrow.nextUuid⟩
  | failed errorCode release s' hpc hcall =>
      rcases attempt_store hcall with rfl | ⟨r, hr⟩
      · exact ⟨.of_eq rfl, rfl⟩
      · have hwrote := Worker.transition_wrote hr
        exact ⟨hwrote.jobs.step, hwrote.nextUuid⟩
  | released rid s' hpc hrid hcall =>
      have hrow := releaseHold_moved hcall
      exact ⟨.of_eq hrow.jobs, hrow.nextUuid⟩

theorem ResolveMove.step {db : DbOutcome} {now : Nat} {q : ResolveRequest}
    {pc : ResolvePc} {outcome : Option (Option ResolvePc)}
    (h : ResolveMove db now q s pc outcome s') :
    JobsStep s.nextUuid none false s.jobs s'.jobs ∧ s'.nextUuid = s.nextUuid := by
  cases h with
  | requested _ _ hwrote hnext => exact ⟨hwrote.jobs.step, hwrote.nextUuid⟩
  | released rid _ _ hrow hnext => exact ⟨.of_eq hrow.jobs, hrow.nextUuid⟩
  | finished _ _ hwrote hnext => exact ⟨hwrote.jobs.step, hwrote.nextUuid⟩

/-- The token an act presents to the job table, and what it does there. -/
theorem WorldMove.step (h : WorldMove cfg w a w') :
    ∃ token, JobsStep w.store.nextUuid token a.sweeps w.store.jobs w'.store.jobs := by
  cases h with
  | idle => exact ⟨none, .of_eq rfl⟩
  | accepted now catalog tenantId actorUserId request requestHash s' j res hnew =>
      exact ⟨none, hnew.step⟩
  | cancelled now tenantId actorUserId jobId s' hwrote => exact ⟨none, hwrote.jobs.step⟩
  | swept now staleSeconds limit locked s' hswept => exact ⟨none, hswept.jobs.step⟩
  | claimed _ now workerId r j s' hact htaken =>
      exact ⟨none, Act.sweeps_of_claims hact ▸ htaken.toClaimed.jobs.step⟩
  | claimLost _ r j s' hact hclaimed =>
      exact ⟨none, Act.sweeps_of_claims hact ▸ hclaimed.jobs.step⟩
  | reclaimed _ now r j s' p hact htaken hp =>
      exact ⟨none, Act.sweeps_of_claims hact ▸ htaken.toClaimed.jobs.step⟩
  | asked now tenantId jobId subject reason q hq => exact ⟨none, .of_eq rfl⟩
  | passed now limit => exact ⟨none, .of_eq rfl⟩
  | renewed pid now db p s' hp hwrote => exact ⟨p.token, hwrote.jobs.step⟩
  | worked pid env p p' s' hp hmove => exact ⟨p.token, hmove.step.1⟩
  | recovered pid env p p' s' hp hmove =>
      cases hmove with
      | recovered hpc => exact ⟨none, .of_eq rfl⟩
      | resolved pc outcome s' hpc hmove => exact ⟨none, hmove.step.1⟩
      | wrote p' s' hfence hquiet hnot hwrote => exact ⟨_, hwrote.jobs.step⟩
      | completed result r s' hok =>
          obtain ⟨-, -, -, -, -, hwrote⟩ := complete_ok hok
          exact ⟨_, hwrote.jobs.step⟩
      | captured next rid s' hquiet hnot hpc hrid hrow => exact ⟨none, .of_eq hrow.jobs⟩
  | operated pid env p pc outcome s' hp hpc hmove => exact ⟨none, hmove.step.1⟩
  | rested pid env p hp hpc => exact ⟨none, .of_eq rfl⟩
  | reconciled pid env p p' s' hp hmove =>
      cases hmove with
      | idle hrows hquiet => exact ⟨none, .of_eq rfl⟩
      | expired row hpc hrows hrow hstatus hclock hnext hraises =>
          exact ⟨none, .of_eq rfl⟩
      | captured row s' hrows hquiet hhold => exact ⟨none, .of_eq hhold.jobs⟩
      | released row s' hpc hrows hquiet hhold => exact ⟨none, .of_eq hhold.jobs⟩
      | marked s' hrows hquiet hwrote => exact ⟨none, hwrote.jobs.step⟩

/-- Every act records the submissions it wrote. -/
theorem WorldMove.submissions (h : WorldMove cfg w a w') :
    w'.submissions = w.submissions ++ entered w.store w'.store := by
  cases h with
  | idle => simp
  | asked now tenantId jobId subject reason q hq => simp [World.spawn]
  | passed now limit => simp [World.spawn]
  | _ => rfl

end Mosaic.Generation
