/-
Who may write a generation job, and which statuses it goes through.

# Edges

Every rewriting of a status is an edge of `ALLOWED_TRANSITIONS`, except
the sweep's of a stalled `running` or `storing` job, which the table has
no edge for (`status_writes_follow_table`).

# Fences

A lease holder is known by the fence it presents: the lease token and
the fencing token of its claim. Tokens are drawn once, so a row that has
lost a token never carries it again, and every write of a holder asks
for both tokens. An earlier holder is therefore locked out for good
(`fenced_ownership`).
-/
import Mosaic.Generation.Proofs.Acts

namespace Mosaic.Generation

open Lib Providers

variable {cfg : Config} {w w' : World} {s s' : Store} {a : Act} {uuid : Nat}
  {token : Option Nat} {sweep : Bool} {j j' : GenerationJob} {now : Nat}

-- ================================================================ edges

/-- The status of a row after a move. -/
theorem JobMove.edge (h : JobMove uuid token sweep j j') (hne : j'.status ≠ j.status) :
    j'.status ∈ j.status.allowedTransitions
      ∨ (sweep = true ∧ (j.status = .running ∨ j.status = .storing)
        ∧ j'.status = .submittedUnknown) := by
  cases h with
  | same => exact absurd rfl hne
  | claimed now lease hstatus hfree hfresh =>
      left
      rw [hstatus]
      exact List.mem_cons_self
  | leased now lease hstatus hfresh => exact absurd rfl hne
  | unclaimed now hstatus hholds => exact absurd rfl hne
  | renewed now leaseSeconds hholds => exact absurd rfl hne
  | transitioned now target v hedge hholds => exact Or.inl hedge
  | recorded now request task hholds => exact absurd rfl hne
  | completed now result hstatus hholds =>
      left
      rw [hstatus]
      exact List.mem_cons_self
  | cancelled now hstatus =>
      left
      rw [hstatus]
      exact (by decide : GenerationStatus.cancelled
        ∈ GenerationStatus.accepted.allowedTransitions)
  | stalled now hsweep hstatus =>
      rcases stalled_status j now with ⟨hto, hfrom | hfrom⟩ | ⟨hto, hfrom⟩
      · left
        rw [hto, hfrom]
        decide
      · left
        rw [hto, hfrom]
        decide
      · rw [hto]
        cases hj : j.status with
        | submitted => exact Or.inl (by decide)
        | running => exact Or.inr ⟨hsweep, Or.inl rfl, rfl⟩
        | storing => exact Or.inr ⟨hsweep, Or.inr rfl, rfl⟩
        | reserved => exact absurd (Or.inl hj) hfrom
        | queued => exact absurd (Or.inr hj) hfrom
        | _ =>
            rw [hj] at hstatus
            cases hstatus
  | resolvedFailed now hstatus =>
      left
      rw [hstatus]
      exact (by decide : GenerationStatus.failed
        ∈ GenerationStatus.submittedUnknown.allowedTransitions)
  | closed now => exact absurd rfl hne

/-- Every operation that changes a job's status follows the transition
table, but for the sweep's move of a stalled `running` or `storing` job to
`submitted_unknown`; a terminal status never changes. -/
theorem status_writes_follow_table {cfg : Config} {w : World} (as : List Act) (a : Act)
    {id : Nat} {j j' : GenerationJob}
    (hj : (run (worldStep cfg) w as).store.jobs.get id = some j)
    (hj' : (run (worldStep cfg) w (as ++ [a])).store.jobs.get id = some j') :
    (j'.status ≠ j.status → j'.status ∈ j.status.allowedTransitions
      ∨ (a.sweeps = true ∧ (j.status = .running ∨ j.status = .storing)
        ∧ j'.status = .submittedUnknown))
      ∧ (j.status.isTerminal = true → j'.status = j.status) := by
  rw [run_concat] at hj'
  obtain ⟨token, hstep⟩ := (worldStep_cases cfg (run (worldStep cfg) w as) a).step
  obtain ⟨x, hx, hmove⟩ := hstep.old id j hj
  obtain rfl := Option.some.inj (hx.symm.trans hj')
  exact ⟨hmove.edge, hmove.terminal⟩

/-- The sample job is claimed: an edge of the table. -/
theorem status_writes_follow_table_sample : ∃ j j',
    (run (worldStep sampleConfig) sampleWorld [sampleAccept]).store.jobs.get 0 = some j
      ∧ (run (worldStep sampleConfig) sampleWorld
        ([sampleAccept] ++ [sampleClaim])).store.jobs.get 0 = some j'
      ∧ j.status = .accepted ∧ j'.status = .reserved
      ∧ j'.status ∈ j.status.allowedTransitions := by
  have hbefore : ((run (worldStep sampleConfig) sampleWorld [sampleAccept]).store.jobs.get
      0).map (·.status) = some .accepted := by decide +kernel
  have hafter : ((run (worldStep sampleConfig) sampleWorld
      ([sampleAccept] ++ [sampleClaim])).store.jobs.get 0).map (·.status)
      = some .reserved := by decide +kernel
  obtain ⟨j, hj, hstatus⟩ := Option.map_eq_some_iff.mp hbefore
  obtain ⟨j', hj', hstatus'⟩ := Option.map_eq_some_iff.mp hafter
  have hmoved : j'.status ≠ j.status := by
    rw [hstatus, hstatus']
    decide
  have hedge := (status_writes_follow_table _ _ hj hj').1 hmoved
  exact ⟨j, j', hj, hj', hstatus, hstatus', hedge.resolve_right fun h => absurd h.1 (by decide)⟩

/-- A worker stops after its transition into `running`; the sweep finds
the job once the lease has run out. -/
def stalledRunning : List Act :=
  [sampleAccept, sampleClaim] ++ List.replicate 12 sampleWork

/-- The table has no edge for what the sweep does to a `running` job. -/
theorem stalled_running_off_table : ¬ ∀ (w : World) (as : List Act) (a : Act) (id : Nat)
    (j j' : GenerationJob), WorldOpening w →
    (run (worldStep sampleConfig) w as).store.jobs.get id = some j →
    (run (worldStep sampleConfig) w (as ++ [a])).store.jobs.get id = some j' →
    j'.status ≠ j.status → j'.status ∈ j.status.allowedTransitions := by
  intro hall
  let sweep : Act := .sweep 1000000000 60 50 fun _ => false
  have hbefore : ((run (worldStep sampleConfig) sampleWorld stalledRunning).store.jobs.get
      0).map (·.status) = some .running := by decide +kernel
  have hafter : ((run (worldStep sampleConfig) sampleWorld
      (stalledRunning ++ [sweep])).store.jobs.get 0).map (·.status)
      = some .submittedUnknown := by decide +kernel
  obtain ⟨j, hj, hstatus⟩ := Option.map_eq_some_iff.mp hbefore
  obtain ⟨j', hj', hstatus'⟩ := Option.map_eq_some_iff.mp hafter
  have hedge := hall sampleWorld stalledRunning sweep 0 j j' sampleWorld_opening hj hj'
  rw [hstatus, hstatus'] at hedge
  exact absurd (hedge (by decide)) (by decide)

-- =========================================================== operations

/-- The writes of a lease holder. -/
inductive HolderOp
  | transition (expected target : GenerationStatus) (v : TransitionValues)
  | complete (book : Catalog.PriceBook) (result : GenerationExecutionResult)
  | renewLease (workerId : String) (leaseSeconds : Nat)
  | ensureLive (workerId : String) (leaseSeconds : Nat)
  | recordProviderTask (providerTaskId : String)
  | recordProviderRequest (providerRequestId : String)
  | releaseReconciliationClaim

/-- The store a holder's write leaves. -/
def HolderOp.perform (now : Nat) (f : Fence) (s : Store) :
    HolderOp → Except GenerationError Store
  | .transition expected target v => (·.2) <$> Generation.transition now f expected target v s
  | .complete book result => (·.2) <$> Generation.complete book now f result s
  | .renewLease workerId leaseSeconds =>
      (·.2) <$> Generation.renewLease now f workerId leaseSeconds s
  | .ensureLive workerId leaseSeconds =>
      (·.2) <$> Generation.ensureLive now f workerId leaseSeconds s
  | .recordProviderTask taskId => (·.2) <$> Generation.recordProviderTask now f taskId s
  | .recordProviderRequest requestId =>
      (·.2) <$> Generation.recordProviderRequest now f requestId s
  | .releaseReconciliationClaim => (·.2) <$> Generation.releaseReconciliationClaim now f s

/-- The one write that asks for the tokens and not for the time. -/
def HolderOp.untimed : HolderOp → Bool
  | .releaseReconciliationClaim => true
  | _ => false

theorem map_eq_ok {α : Type} {x : Except GenerationError (α × Store)} :
    (·.2) <$> x = .ok s' ↔ ∃ y, x = .ok (y, s') := by
  cases x with
  | error e => simp [Functor.map, Except.map]
  | ok y => simp [Functor.map, Except.map, Prod.ext_iff]

/-- A holder's write goes through only under its own tokens, and but for
the giving back of a claim only before the lease runs out. -/
theorem HolderOp.perform_ok {f : Fence} {op : HolderOp}
    (h : op.perform now f s = .ok s') :
    ∃ j, s.jobs.get f.jobId = some j ∧ f.matches j = true
      ∧ (op.untimed = false → f.live now j = true) := by
  have hlive : ∀ j, f.live now j = true → f.matches j = true := by
    intro j hj
    rw [Fence.live, Bool.and_eq_true] at hj
    exact hj.1
  cases op with
  | transition expected target v =>
      obtain ⟨r, hr⟩ := map_eq_ok.mp h
      obtain ⟨j, hj, hl, -⟩ := transition_ok hr
      exact ⟨j, hj, hlive j hl, fun _ => hl⟩
  | complete book result =>
      obtain ⟨r, hr⟩ := map_eq_ok.mp h
      simp only [Generation.complete, bind_eq_ok, orRaise_eq_ok, Fence.row_eq_some] at hr
      obtain ⟨-, -, j, ⟨hj, hl, -⟩, -⟩ := hr
      exact ⟨j, hj, hlive j hl, fun _ => hl⟩
  | renewLease workerId leaseSeconds =>
      obtain ⟨r, hr⟩ := map_eq_ok.mp h
      simp only [Generation.renewLease, bind_eq_ok, orRaise_eq_ok, Fence.row_eq_some] at hr
      obtain ⟨-, -, -, -, j, ⟨hj, hl, -⟩, -⟩ := hr
      exact ⟨j, hj, hlive j hl, fun _ => hl⟩
  | ensureLive workerId leaseSeconds =>
      obtain ⟨r, hr⟩ := map_eq_ok.mp h
      simp only [Generation.ensureLive, bind_eq_ok, orRaise_eq_ok, Fence.row_eq_some] at hr
      obtain ⟨-, -, j, ⟨hj, hl, -⟩, -⟩ := hr
      exact ⟨j, hj, hlive j hl, fun _ => hl⟩
  | recordProviderTask taskId =>
      obtain ⟨r, hr⟩ := map_eq_ok.mp h
      simp only [Generation.recordProviderTask, bind_eq_ok, orRaise_eq_ok,
        Fence.row_eq_some] at hr
      obtain ⟨-, -, -, -, j, ⟨hj, hl, -⟩, -⟩ := hr
      exact ⟨j, hj, hlive j hl, fun _ => hl⟩
  | recordProviderRequest requestId =>
      obtain ⟨r, hr⟩ := map_eq_ok.mp h
      simp only [Generation.recordProviderRequest, bind_eq_ok, orRaise_eq_ok,
        Fence.row_eq_some] at hr
      obtain ⟨-, -, -, -, j, ⟨hj, hl, -⟩, -⟩ := hr
      exact ⟨j, hj, hlive j hl, fun _ => hl⟩
  | releaseReconciliationClaim =>
      obtain ⟨r, hr⟩ := map_eq_ok.mp h
      simp only [Generation.releaseReconciliationClaim, bind_eq_ok, orRaise_eq_ok,
        Option.filter_eq_some_iff, Bool.and_eq_true] at hr
      obtain ⟨-, -, j, ⟨hj, ⟨hmatches, -⟩, -⟩, -⟩ := hr
      exact ⟨j, hj, hmatches, fun h => by cases h⟩

/-- The three claims. -/
inductive ClaimOp
  | accepted (tenantId jobId : Nat)
  | nextAccepted (tenantId : Option Nat) (modalities : Option (List Modality))
  | pendingReconciliation

def ClaimOp.perform (now : Nat) (locked : Nat → Bool) (workerId : String)
    (leaseSeconds : Nat) (s : Store) :
    ClaimOp → Except GenerationError (Option GenerationRecord × Store)
  | .accepted tenantId jobId =>
      claimAccepted now locked tenantId jobId workerId leaseSeconds s
  | .nextAccepted tenantId modalities =>
      claimNextAccepted now locked tenantId modalities workerId leaseSeconds s
  | .pendingReconciliation => claimPendingReconciliation now locked workerId leaseSeconds s

theorem ClaimOp.perform_ok {op : ClaimOp} {locked : Nat → Bool} {workerId : String}
    {leaseSeconds : Nat} {r : GenerationRecord}
    (h : op.perform now locked workerId leaseSeconds s = .ok (some r, s')) :
    ∃ j, Claimed s s' r j := by
  cases op with
  | accepted tenantId jobId =>
      obtain ⟨habsurd, -⟩ | ⟨x, j, hx, htaken⟩ := claimAccepted_ok h
      · cases habsurd
      · obtain rfl := Option.some.inj hx
        exact ⟨j, htaken.toClaimed⟩
  | nextAccepted tenantId modalities =>
      obtain ⟨habsurd, -⟩ | ⟨x, j, hx, htaken⟩ := claimNextAccepted_ok h
      · cases habsurd
      · obtain rfl := Option.some.inj hx
        exact ⟨j, htaken.toClaimed⟩
  | pendingReconciliation =>
      obtain ⟨habsurd, -⟩ | ⟨x, j, hx, htaken⟩ := claimPendingReconciliation_ok h
      · cases habsurd
      · obtain rfl := Option.some.inj hx
        exact ⟨j, htaken.toClaimed⟩

-- ============================================================== columns

/-- The three lease columns are null together or set together. -/
def LeaseWhole (j : GenerationJob) : Prop :=
  j.claimOwner.isSome = j.leaseToken.isSome
    ∧ j.leaseExpiresAt.isSome = j.leaseToken.isSome

theorem JobMove.leaseWhole (h : JobMove uuid token sweep j j') (hj : LeaseWhole j) :
    LeaseWhole j' := by
  cases h with
  | claimed now lease hstatus hfree hfresh => exact ⟨rfl, rfl⟩
  | leased now lease hstatus hfresh => exact ⟨rfl, rfl⟩
  | unclaimed now hstatus hholds => exact ⟨rfl, rfl⟩
  | renewed now leaseSeconds hholds =>
      obtain ⟨n, hn, -⟩ := hholds
      refine ⟨hj.1, ?_⟩
      change true = j.leaseToken.isSome
      rw [hn]
      rfl
  | transitioned now target v hedge hholds =>
      unfold LeaseWhole GenerationJob.transitioned
      dsimp only
      split
      · exact ⟨rfl, rfl⟩
      · exact hj
  | completed now result hstatus hholds => exact ⟨rfl, rfl⟩
  | stalled now hsweep hstatus =>
      unfold GenerationJob.stalled
      split <;> exact ⟨rfl, rfl⟩
  | resolvedFailed now hstatus => exact ⟨rfl, rfl⟩
  | _ => exact hj

-- =============================================================== tokens

/-- Tokens are drawn upwards. -/
theorem WorldMove.nextUuid (h : WorldMove cfg w a w') :
    w.store.nextUuid ≤ w'.store.nextUuid := by
  cases h with
  | idle => exact le_rfl
  | accepted now catalog tenantId actorUserId request requestHash s' j res hnew =>
      exact hnew.nextUuid.ge
  | cancelled now tenantId actorUserId jobId s' hwrote => exact hwrote.nextUuid.ge
  | swept now staleSeconds limit locked s' hswept => exact hswept.nextUuid.ge
  | claimed _ now workerId r j s' hact htaken =>
      change w.store.nextUuid ≤ s'.nextUuid
      rw [htaken.written]
      exact Nat.le_succ _
  | claimLost _ r j s' hact hclaimed =>
      change w.store.nextUuid ≤ s'.nextUuid
      rw [hclaimed.written]
      exact Nat.le_succ _
  | reclaimed _ now r j s' p hact htaken hp =>
      change w.store.nextUuid ≤ s'.nextUuid
      rw [htaken.written]
      exact Nat.le_succ _
  | asked now tenantId jobId subject reason q hq => exact le_rfl
  | passed now limit => exact le_rfl
  | renewed pid now db p s' hp hwrote => exact hwrote.nextUuid.ge
  | worked pid env p p' s' hp hmove => exact hmove.step.2.ge
  | recovered pid env p p' s' hp hmove =>
      cases hmove with
      | recovered hpc => exact le_rfl
      | resolved pc outcome s' hpc hmove => exact hmove.step.2.ge
      | wrote p' s' hfence hquiet hnot hwrote => exact hwrote.nextUuid.ge
      | completed result r s' hok =>
          obtain ⟨-, -, -, -, -, hwrote⟩ := complete_ok hok
          exact hwrote.nextUuid.ge
      | captured next rid s' hquiet hnot hpc hrid hrow => exact hrow.nextUuid.ge
  | operated pid env p pc outcome s' hp hpc hmove => exact hmove.step.2.ge
  | rested pid env p hp hpc => exact le_rfl
  | reconciled pid env p p' s' hp hmove =>
      cases hmove with
      | idle hrows hquiet => exact le_rfl
      | expired row hpc hrows hrow hstatus hclock hnext hraises => exact le_rfl
      | captured row s' hrows hquiet hhold => exact hhold.nextUuid.ge
      | released row s' hpc hrows hquiet hhold => exact hhold.nextUuid.ge
      | marked s' hrows hquiet hwrote => exact hwrote.nextUuid.ge

/-- The fence was handed out, and its job does not carry it: the holder
gave it up, or somebody took the job. -/
structure Lost (f : Fence) (s : Store) : Prop where
  drawn : f.leaseToken < s.nextUuid
  gone : ∀ j, s.jobs.get f.jobId = some j → f.matches j = false

/-- A token that is gone stays gone. -/
theorem Lost.step {f : Fence} (h : Lost f w.store) (hmove : WorldMove cfg w a w') :
    Lost f w'.store := by
  obtain ⟨token, hstep⟩ := hmove.step
  refine ⟨lt_of_lt_of_le h.drawn hmove.nextUuid, fun j' hj' => ?_⟩
  rcases hstep.new _ j' hj' with ⟨j, hj, hm⟩ | ⟨-, hfresh⟩
  · have hgone := h.gone j hj
    have hdrawn := h.drawn
    rcases hm.leaseToken with ⟨htoken, hfencing⟩ | ⟨htoken, -⟩ | ⟨htoken, -⟩
    · rw [Fence.matches, htoken, hfencing, hm.frame.1]
      exact hgone
    · simp [Fence.matches, htoken]
    · have hne : w.store.nextUuid ≠ f.leaseToken := by omega
      simp [Fence.matches, htoken, hne]
  · simp [Fence.matches, hfresh.leaseToken]

/-- No write of a lost holder goes through. -/
theorem Lost.locked_out {f : Fence} (h : Lost f s) (now : Nat) (op : HolderOp)
    (s' : Store) : op.perform now f s ≠ .ok s' := by
  intro hok
  obtain ⟨j, hj, hmatches, -⟩ := HolderOp.perform_ok hok
  rw [h.gone j hj] at hmatches
  cases hmatches

/-- What a claim of the job makes of every token drawn before. -/
theorem Claimed.lost {r : GenerationRecord} (h : Claimed s s' r j) {f : Fence}
    (hjob : f.jobId = r.jobId) (hdrawn : f.leaseToken < s.nextUuid) : Lost f s' := by
  have hrow : s'.jobs.get r.jobId = some r.job := by
    simp [h.written, h.found]
  refine ⟨?_, fun x hx => ?_⟩
  · rw [h.written]
    exact Nat.lt_succ_of_lt hdrawn
  · rw [hjob] at hx
    obtain rfl := Option.some.inj (hrow.symm.trans hx)
    have hne : s.nextUuid ≠ f.leaseToken := by omega
    simp [Fence.matches, h.token, hne]

/-- A fencing token never falls. -/
theorem fencingToken_run {id : Nat} (hj : w.store.jobs.get id = some j)
    (as : List Act) : ∃ j', (run (worldStep cfg) w as).store.jobs.get id = some j'
      ∧ j.fencingToken ≤ j'.fencingToken := by
  have hstep : ∀ (w : World) (a : Act),
      (∃ x, w.store.jobs.get id = some x ∧ j.fencingToken ≤ x.fencingToken) →
      ∃ x, (worldStep cfg w a).store.jobs.get id = some x
        ∧ j.fencingToken ≤ x.fencingToken := by
    intro w a hw
    obtain ⟨x, hx, hle⟩ := hw
    obtain ⟨token, hstep⟩ := (worldStep_cases cfg w a).step
    obtain ⟨x', hx', hmove⟩ := hstep.old id x hx
    refine ⟨x', hx', ?_⟩
    rcases hmove.leaseToken with ⟨-, h⟩ | ⟨-, h⟩ | ⟨-, h⟩ <;> omega
  exact run_invariant hstep ⟨j, hj, le_rfl⟩ as

theorem leaseWhole_run (h : WorldOpening w) (as : List Act) {id : Nat}
    (hj : (run (worldStep cfg) w as).store.jobs.get id = some j) : LeaseWhole j := by
  have hstep : ∀ (w : World) (a : Act),
      (∀ id x, w.store.jobs.get id = some x → LeaseWhole x) →
      ∀ id x, (worldStep cfg w a).store.jobs.get id = some x → LeaseWhole x := by
    intro w a hw id x' hx'
    obtain ⟨token, hstep⟩ := (worldStep_cases cfg w a).step
    rcases hstep.new id x' hx' with ⟨x, hx, hmove⟩ | ⟨-, hfresh⟩
    · exact hmove.leaseWhole (hw id x hx)
    · simp [LeaseWhole, hfresh.claimOwner, hfresh.leaseToken, hfresh.leaseExpiresAt]
  exact run_invariant hstep (by simp [h.jobs]) as id j hj

theorem lost_run {f : Fence} (h : Lost f w.store) (as : List Act) :
    Lost f (run (worldStep cfg) w as).store := by
  have hstep : ∀ (w : World) (a : Act), Lost f w.store → Lost f (worldStep cfg w a).store :=
    fun w a hw => hw.step (worldStep_cases cfg w a)
  exact run_invariant hstep h as

-- ============================================================== the law

/-- Fenced ownership, in the store of every reachable world: what a claim
does, what a holder's write asks for, what becomes of a holder that lost
its job, and the lease columns. -/
structure FencedOwnership (cfg : Config) (w : World) : Prop where
  /-- A claim raises the fencing token and locks out everyone before it. -/
  claim : ∀ (op : ClaimOp) now locked workerId leaseSeconds r s',
    op.perform now locked workerId leaseSeconds w.store = .ok (some r, s') →
    ∃ j, w.store.jobs.get r.jobId = some j ∧ s'.jobs.get r.jobId = some r.job
      ∧ j.fencingToken < r.job.fencingToken
      ∧ ∀ f : Fence, f.jobId = r.jobId → f.leaseToken < w.store.nextUuid → Lost f s'
  /-- A holder's write takes effect only under the job's current tokens. -/
  holder : ∀ (op : HolderOp) now f s', op.perform now f w.store = .ok s' →
    ∃ j, w.store.jobs.get f.jobId = some j ∧ f.matches j = true
      ∧ (op.untimed = false → f.live now j = true)
  /-- After the job has gone to somebody else, no write of the holder takes
  effect any more. -/
  earlier : ∀ f : Fence, Lost f w.store → ∀ (bs : List Act) (op : HolderOp) now s',
    op.perform now f (run (worldStep cfg) w bs).store ≠ .ok s'
  /-- The fencing token of a job never falls. -/
  fencing : ∀ id j, w.store.jobs.get id = some j → ∀ (bs : List Act),
    ∃ j', (run (worldStep cfg) w bs).store.jobs.get id = some j'
      ∧ j.fencingToken ≤ j'.fencingToken
  /-- Owner, token and expiry are all null or all set. -/
  columns : ∀ id j, w.store.jobs.get id = some j → LeaseWhole j

theorem fenced_ownership {cfg : Config} {w : World} (h : WorldOpening w)
    (as : List Act) : FencedOwnership cfg (run (worldStep cfg) w as) where
  claim := by
    intro op now locked workerId leaseSeconds r s' hok
    obtain ⟨j, hclaimed⟩ := ClaimOp.perform_ok hok
    have hrow : s'.jobs.get r.jobId = some r.job := by
      simp [hclaimed.written, hclaimed.found]
    have hraised : j.fencingToken < r.job.fencingToken := by
      have := hclaimed.fencing
      omega
    exact ⟨j, hclaimed.found, hrow, hraised, fun f hjob hdrawn => hclaimed.lost hjob hdrawn⟩
  holder := fun op now f s' hok => HolderOp.perform_ok hok
  earlier := fun f hlost bs op now s' => (lost_run hlost bs).locked_out now op s'
  fencing := fun id j hj bs => fencingToken_run hj bs
  columns := fun id j hj => leaseWhole_run h as hj

/-- The sweep finds the stalled job, and a second process claims it for
recovery. -/
def takenOver : List Act :=
  stalledRunning ++ [.sweep 1000000000 60 50 fun _ => false,
    .recover 1000000001 .committed (fun _ => false) "worker-2" 60]

/-- The tokens of the process that stalled. -/
def firstHolder : Fence :=
  { tenantId := 1, jobId := 0, leaseToken := 0, fencingToken := 1 }

/-- The job has a new holder, and whatever the earlier one still tries, and
whenever, fails. -/
theorem fenced_ownership_sample :
    let w := run (worldStep sampleConfig) sampleWorld takenOver
    (w.store.jobs.get 0).map (fun j => (j.fencingToken, j.leaseToken)) = some (2, some 1)
      ∧ FencedOwnership sampleConfig w
      ∧ ∀ (bs : List Act) (op : HolderOp) now s',
        op.perform now firstHolder (run (worldStep sampleConfig) w bs).store ≠ .ok s' := by
  have hjob : ((run (worldStep sampleConfig) sampleWorld takenOver).store.jobs.get 0).map
      (fun j => (j.fencingToken, j.leaseToken)) = some (2, some 1) := by decide +kernel
  have hdrawn : (run (worldStep sampleConfig) sampleWorld takenOver).store.nextUuid = 2 := by
    decide +kernel
  have howned : FencedOwnership sampleConfig
      (run (worldStep sampleConfig) sampleWorld takenOver) :=
    fenced_ownership sampleWorld_opening takenOver
  have hlost : Lost firstHolder
      (run (worldStep sampleConfig) sampleWorld takenOver).store := by
    refine ⟨by rw [hdrawn]; decide, fun j hj => ?_⟩
    have hj : (run (worldStep sampleConfig) sampleWorld takenOver).store.jobs.get 0 = some j := hj
    rw [hj] at hjob
    simp only [Option.map_some, Option.some.injEq, Prod.mk.injEq] at hjob
    simp [Fence.matches, firstHolder, hjob]
  exact ⟨hjob, howned, howned.earlier firstHolder hlost⟩

end Mosaic.Generation
