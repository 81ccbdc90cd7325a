/-
What an operation can do to a job row.

`JobMove` names every way one transaction rewrites a generation job,
with the guards its code checked. It is indexed by the UUID a claim
would draw, which is the token it leaves; by the lease token the caller
presented (`none` for a caller without a lease), which the fenced moves
found in the row; and by whether the caller is the stall sweep. Everything the system results need
of a row is a property of `JobMove`, proved here by a case analysis over
its constructors; each operation of the repository is then one inversion
lemma.
-/
import Mosaic.Generation.World

namespace Mosaic.Generation

open Lib

variable {uuid : Nat} {token : Option Nat} {sweep : Bool} {s s' : Store} {j j' : GenerationJob}
  {now : Nat}

-- ================================================================ moves

/-- The row carries the lease the caller presented. -/
def Holds (token : Option Nat) (j : GenerationJob) : Prop :=
  ∃ n, j.leaseToken = some n ∧ token = some n

/-- Every rewriting of a job by one transaction. -/
inductive JobMove (uuid : Nat) (token : Option Nat) (sweep : Bool) (j : GenerationJob) :
    GenerationJob → Prop
  | same : JobMove uuid token sweep j j
  | claimed (now : Nat) (lease : Lease) (hstatus : j.status = .accepted)
      (hfree : j.leaseToken = none) (hfresh : lease.token = uuid) :
      JobMove uuid token sweep j (j.claimed now lease)
  | leased (now : Nat) (lease : Lease) (hstatus : j.status = .submittedUnknown)
      (hfresh : lease.token = uuid) : JobMove uuid token sweep j (j.leased now lease)
  | unclaimed (now : Nat) (hstatus : j.status = .submittedUnknown)
      (hholds : Holds token j) :
      JobMove uuid token sweep j { j.unleased with updatedAt := now }
  | renewed (now leaseSeconds : Nat) (hholds : Holds token j) :
      JobMove uuid token sweep j (j.renewed now leaseSeconds)
  | transitioned (now : Nat) (target : GenerationStatus) (v : TransitionValues)
      (hedge : target ∈ j.status.allowedTransitions) (hholds : Holds token j) :
      JobMove uuid token sweep j (j.transitioned now target v)
  | recorded (now : Nat) (request task : Option String) (hholds : Holds token j) :
      JobMove uuid token sweep j
        { j with providerRequestId := request, providerTaskId := task, updatedAt := now }
  | completed (now : Nat) (result : GenerationExecutionResult)
      (hstatus : j.status = .storing) (hholds : Holds token j) :
      JobMove uuid token sweep j (j.completed now result)
  | cancelled (now : Nat) (hstatus : j.status = .accepted) :
      JobMove uuid token sweep j
        { j with
          status := .cancelled, completedAt := some now, updatedAt := now
          errorCode := none, reconciliationStatus := .notRequired }
  | stalled (now : Nat) (hsweep : sweep = true) (hstatus : j.status.inProgress = true) :
      JobMove uuid token sweep j (j.stalled now)
  | resolvedFailed (now : Nat) (hstatus : j.status = .submittedUnknown) :
      JobMove uuid token sweep j (j.resolvedFailed now)
  | closed (now : Nat) :
      JobMove uuid token sweep j { j with reconciliationStatus := .resolved, updatedAt := now }

namespace JobMove

/-- The columns of acceptance never change. -/
theorem frame (h : JobMove uuid token sweep j j') :
    j'.tenantId = j.tenantId ∧ j'.billingReservationId = j.billingReservationId := by
  cases h with
  | stalled now hsweep hstatus =>
      unfold GenerationJob.stalled
      split <;> exact ⟨rfl, rfl⟩
  | _ => exact ⟨rfl, rfl⟩

/-- The status a stalled job goes to. -/
theorem stalled_status (j : GenerationJob) (now : Nat) :
    (j.stalled now).status = .failed ∧ (j.status = .reserved ∨ j.status = .queued)
      ∨ (j.stalled now).status = .submittedUnknown
        ∧ ¬ (j.status = .reserved ∨ j.status = .queued) := by
  unfold GenerationJob.stalled
  split
  · next h => exact Or.inl ⟨rfl, h⟩
  · next h => exact Or.inr ⟨rfl, h⟩

/-- No move leads back before the submission. -/
theorem unsubmitted (h : JobMove uuid token sweep j j') (hj' : j'.status.unsubmitted = true) :
    j.status.unsubmitted = true := by
  cases h with
  | same => exact hj'
  | claimed now lease hstatus hfree hfresh =>
      rw [hstatus]
      rfl
  | leased now lease hstatus hfresh => exact hj'
  | unclaimed now hstatus hholds => exact hj'
  | renewed now leaseSeconds hholds => exact hj'
  | transitioned now target v hedge hholds =>
      exact GenerationStatus.unsubmitted_exit hedge hj'
  | recorded now request task hholds => exact hj'
  | completed now result hstatus hholds => cases hj'
  | cancelled now hstatus => cases hj'
  | stalled now hsweep hstatus =>
      rcases stalled_status j now with ⟨h, -⟩ | ⟨h, -⟩ <;> rw [h] at hj' <;> cases hj'
  | resolvedFailed now hstatus => cases hj'
  | closed now => exact hj'

/-- `submitted` is entered from `queued`, by the lease holder. -/
theorem submission (h : JobMove uuid token sweep j j') (hj' : j'.status = .submitted) :
    j.status = .submitted ∨ (j.status = .queued ∧ Holds token j) := by
  cases h with
  | same => exact Or.inl hj'
  | claimed now lease hstatus hfree hfresh => cases hj'
  | leased now lease hstatus hfresh => exact Or.inl hj'
  | unclaimed now hstatus hholds => exact Or.inl hj'
  | renewed now leaseSeconds hholds => exact Or.inl hj'
  | transitioned now target v hedge hholds =>
      obtain rfl : target = .submitted := hj'
      exact Or.inr ⟨GenerationStatus.submitted_entry hedge, hholds⟩
  | recorded now request task hholds => exact Or.inl hj'
  | completed now result hstatus hholds => cases hj'
  | cancelled now hstatus => cases hj'
  | stalled now hsweep hstatus =>
      rcases stalled_status j now with ⟨h, -⟩ | ⟨h, -⟩ <;> rw [h] at hj' <;> cases hj'
  | resolvedFailed now hstatus => cases hj'
  | closed now => exact Or.inl hj'

/-- A terminal status is final. -/
theorem terminal (h : JobMove uuid token sweep j j') (hj : j.status.isTerminal = true) :
    j'.status = j.status := by
  cases h with
  | same => rfl
  | claimed now lease hstatus hfree hfresh =>
      rw [hstatus] at hj
      cases hj
  | leased now lease hstatus hfresh => rfl
  | unclaimed now hstatus hholds => rfl
  | renewed now leaseSeconds hholds => rfl
  | transitioned now target v hedge hholds =>
      rw [GenerationStatus.terminal_exit hedge] at hj
      cases hj
  | recorded now request task hholds => rfl
  | completed now result hstatus hholds =>
      rw [hstatus] at hj
      cases hj
  | cancelled now hstatus =>
      rw [hstatus] at hj
      cases hj
  | stalled now hsweep hstatus =>
      rw [GenerationStatus.not_terminal_of_inProgress hstatus] at hj
      cases hj
  | resolvedFailed now hstatus =>
      rw [hstatus] at hj
      cases hj
  | closed now => rfl

/-- The token column keeps its value, is cleared, or takes the UUID of a
claim. -/
theorem leaseToken (h : JobMove uuid token sweep j j') :
    (j'.leaseToken = j.leaseToken ∧ j'.fencingToken = j.fencingToken)
      ∨ (j'.leaseToken = none ∧ j'.fencingToken = j.fencingToken)
      ∨ (j'.leaseToken = some uuid ∧ j'.fencingToken = j.fencingToken + 1) := by
  cases h with
  | claimed now lease hstatus hfree hfresh =>
      exact Or.inr (Or.inr ⟨congrArg some hfresh, rfl⟩)
  | leased now lease hstatus hfresh =>
      exact Or.inr (Or.inr ⟨congrArg some hfresh, rfl⟩)
  | unclaimed now hstatus hholds => exact Or.inr (Or.inl ⟨rfl, rfl⟩)
  | transitioned now target v hedge hholds =>
      by_cases hclears : target.clearsLease = true
      · exact Or.inr (Or.inl ⟨if_pos hclears, rfl⟩)
      · exact Or.inl ⟨if_neg hclears, rfl⟩
  | completed now result hstatus hholds => exact Or.inr (Or.inl ⟨rfl, rfl⟩)
  | stalled now hsweep hstatus =>
      right; left
      unfold GenerationJob.stalled
      split <;> exact ⟨rfl, rfl⟩
  | resolvedFailed now hstatus => exact Or.inr (Or.inl ⟨rfl, rfl⟩)
  | _ => exact Or.inl ⟨rfl, rfl⟩

end JobMove

-- =============================================================== tables

/-- One transaction, as the job table sees it. -/
structure JobsMoved (uuid : Nat) (token : Option Nat) (sweep : Bool) (t t' : Table GenerationJob) : Prop where
  old : ∀ id j, t.get id = some j → ∃ j', t'.get id = some j' ∧ JobMove uuid token sweep j j'
  new : ∀ id j', t'.get id = some j' → ∃ j, t.get id = some j ∧ JobMove uuid token sweep j j'

theorem JobsMoved.refl (t : Table GenerationJob) : JobsMoved uuid token sweep t t :=
  ⟨fun _ j hj => ⟨j, hj, .same⟩, fun _ j hj => ⟨j, hj, .same⟩⟩

/-- One row moves, the others stay. -/
theorem JobsMoved.modify {t : Table GenerationJob} {id : Nat} (hj : t.get id = some j)
    (hmove : JobMove uuid token sweep j j') : JobsMoved uuid token sweep t (t.modify id fun _ => j') := by
  have hrep := Table.replaced_modify hj fun _ => j'
  constructor
  · intro i x hx
    by_cases hi : i = id
    · subst hi
      obtain rfl := Option.some.inj (hj.symm.trans hx)
      exact ⟨j', hrep.new, hmove⟩
    · exact ⟨x, by rw [hrep.other hi, hx], .same⟩
  · intro i x hx
    obtain ⟨rfl, rfl⟩ | ⟨-, hx⟩ := hrep.cases hx
    · exact ⟨j, hj, hmove⟩
    · exact ⟨x, hx, .same⟩

/-- A transaction that moves jobs and no hold. -/
structure Wrote (token : Option Nat) (s s' : Store) : Prop where
  jobs : JobsMoved s.nextUuid token false s.jobs s'.jobs
  reservations : s'.billing.reservations = s.billing.reservations
  nextUuid : s'.nextUuid = s.nextUuid

/-- A run of the stall sweep. -/
structure Swept (s s' : Store) : Prop where
  jobs : JobsMoved s.nextUuid none true s.jobs s'.jobs
  reservations : s'.billing.reservations = s.billing.reservations
  nextUuid : s'.nextUuid = s.nextUuid

theorem Wrote.refl (s : Store) : Wrote token s s := ⟨.refl _, rfl, rfl⟩

theorem Wrote.setJob {id : Nat} (hj : s.jobs.get id = some j)
    (hmove : JobMove s.nextUuid token false j j') : Wrote token s (s.setJob id j') :=
  ⟨.modify hj hmove, rfl, rfl⟩

/-- The statuses in which a hold is given back. -/
def GenerationStatus.negative : GenerationStatus → Bool
  | .failed => true
  | .cancelled => true
  | .expired => true
  | _ => false

/-- A transaction that moves jobs and fails none. -/
structure Spared (token : Option Nat) (s s' : Store) : Prop extends Wrote token s s' where
  spares : ∀ id j j', s.jobs.get id = some j → s'.jobs.get id = some j' →
    j'.status.negative = true → j'.status = j.status

theorem Spared.refl (s : Store) : Spared token s s := by
  refine ⟨.refl s, fun id j j' hj hj' _ => ?_⟩
  obtain rfl := Option.some.inj (hj.symm.trans hj')
  rfl

/-- The write of one row, if it does not fail. -/
theorem Wrote.spared {id : Nat} (h : Wrote token s s')
    (hjobs : s'.jobs = (s.setJob id j').jobs) (hj : s.jobs.get id = some j)
    (hstatus : j'.status.negative = true → j'.status = j.status) : Spared token s s' := by
  refine ⟨h, fun i x x' hx hx' hneg => ?_⟩
  rw [hjobs] at hx'
  rcases Table.get_modify_cases hx' with ⟨rfl, -, -, rfl⟩ | ⟨-, hx'⟩
  · obtain rfl := Option.some.inj (hj.symm.trans hx)
    exact hstatus hneg
  · obtain rfl := Option.some.inj (hx.symm.trans hx')
    rfl

-- =============================================================== fences

theorem Fence.live_holds {f : Fence} (h : f.live now j = true) :
    Holds (some f.leaseToken) j := by
  simp only [Fence.live, Fence.matches, Bool.and_eq_true, Option.any_eq_true,
    beq_iff_eq] at h
  obtain ⟨⟨⟨-, l, hl, htoken⟩, -⟩, -⟩ := h
  exact ⟨l, hl, by rw [htoken]⟩

theorem Fence.row_eq_some {f : Fence} {p : GenerationJob → Bool} :
    f.row now s p = some j
      ↔ s.jobs.get f.jobId = some j ∧ f.live now j = true ∧ p j = true := by
  rw [Fence.row, Option.filter_eq_some_iff, Bool.and_eq_true]

/-- What a successful `transition` did. -/
theorem transition_ok {f : Fence} {expected target : GenerationStatus}
    {v : TransitionValues} {r : GenerationRecord}
    (h : transition now f expected target v s = .ok (r, s')) :
    ∃ j, s.jobs.get f.jobId = some j ∧ f.live now j = true ∧ j.status = expected
      ∧ target ∈ expected.allowedTransitions
      ∧ r = ⟨f.jobId, j.transitioned now target v⟩
      ∧ s' = s.setJob f.jobId (j.transitioned now target v) := by
  simp only [transition, assertTransition, bind_eq_ok, raiseIf_eq_ok, not_not,
    orRaise_eq_ok, Fence.row_eq_some, beq_iff_eq, pure_eq_ok, Prod.mk.injEq] at h
  obtain ⟨-, hedge, -, -, -, -, -, -, j, ⟨hj, hlive, hstatus⟩, -, -, -, -, rfl, rfl⟩ := h
  exact ⟨j, hj, hlive, hstatus, hedge, rfl, rfl⟩

theorem transition_wrote {f : Fence} {expected target : GenerationStatus}
    {v : TransitionValues} {r : GenerationRecord}
    (h : transition now f expected target v s = .ok (r, s')) :
    Wrote (some f.leaseToken) s s' := by
  obtain ⟨j, hj, hlive, rfl, hedge, -, rfl⟩ := transition_ok h
  exact .setJob hj (.transitioned now target v hedge (Fence.live_holds hlive))

theorem transition_spared {f : Fence} {expected target : GenerationStatus}
    {v : TransitionValues} {r : GenerationRecord} (htarget : target.negative = false)
    (h : transition now f expected target v s = .ok (r, s')) :
    Spared (some f.leaseToken) s s' := by
  obtain ⟨j, hj, -, -, -, -, hs⟩ := transition_ok h
  refine (transition_wrote h).spared (by rw [hs]) hj fun hneg => ?_
  change target.negative = true at hneg
  rw [htarget] at hneg
  cases hneg

theorem ensureLive_spared {f : Fence} {workerId : String} {leaseSeconds : Nat} {u : Unit}
    (h : ensureLive now f workerId leaseSeconds s = .ok (u, s')) :
    Spared (some f.leaseToken) s s' := by
  simp only [ensureLive, bind_eq_ok, orRaise_eq_ok, Fence.row_eq_some, pure_eq_ok,
    Prod.mk.injEq] at h
  obtain ⟨-, -, j, ⟨hj, hlive, -⟩, -, rfl⟩ := h
  refine Wrote.spared (.setJob hj (.renewed now leaseSeconds (Fence.live_holds hlive))) rfl
    hj fun _ => rfl

theorem recordProviderTask_spared {f : Fence} {taskId : String} {u : Unit}
    (h : recordProviderTask now f taskId s = .ok (u, s')) :
    Spared (some f.leaseToken) s s' := by
  simp only [recordProviderTask, bind_eq_ok, orRaise_eq_ok, Fence.row_eq_some,
    pure_eq_ok, Prod.mk.injEq] at h
  obtain ⟨-, -, -, -, j, ⟨hj, hlive, -⟩, -, -, -, rfl⟩ := h
  refine Wrote.spared (.setJob hj (.recorded now _ _ (Fence.live_holds hlive))) rfl hj
    fun _ => rfl

theorem recordProviderRequest_spared {f : Fence} {requestId : String} {u : Unit}
    (h : recordProviderRequest now f requestId s = .ok (u, s')) :
    Spared (some f.leaseToken) s s' := by
  simp only [recordProviderRequest, bind_eq_ok, orRaise_eq_ok, Fence.row_eq_some,
    pure_eq_ok, Prod.mk.injEq] at h
  obtain ⟨-, -, -, -, j, ⟨hj, hlive, -⟩, -, -, -, rfl⟩ := h
  refine Wrote.spared (.setJob hj (.recorded now _ _ (Fence.live_holds hlive))) rfl hj
    fun _ => rfl

/-- What a successful `complete` did. -/
theorem complete_ok {book : Catalog.PriceBook} {f : Fence}
    {result : GenerationExecutionResult} {r : GenerationRecord}
    (h : complete book now f result s = .ok (r, s')) :
    ∃ j, s.jobs.get f.jobId = some j ∧ j.status = .storing
      ∧ r = ⟨f.jobId, j.completed now result⟩
      ∧ s'.jobs = (s.setJob f.jobId (j.completed now result)).jobs
      ∧ Spared (some f.leaseToken) s s' := by
  simp only [complete, bind_eq_ok, orRaise_eq_ok, Fence.row_eq_some, raiseIf_eq_ok,
    not_not, pure_eq_ok, Prod.mk.injEq] at h
  obtain ⟨-, -, j, ⟨hj, hlive, -⟩, -, hstatus, -, -, -, -, -, -, -, -, -, -, -, -, -, -,
    -, -, rfl, rfl⟩ := h
  have hmove : JobMove s.nextUuid (some f.leaseToken) false j (j.completed now result) :=
    .completed now result hstatus (Fence.live_holds hlive)
  have hkept : (j.completed now result).status.negative = true →
      (j.completed now result).status = j.status := by
    intro hnegative
    cases hnegative
  exact ⟨j, hj, hstatus, rfl, rfl, Wrote.spared ⟨.modify hj hmove, rfl, rfl⟩ rfl hj hkept⟩

theorem releaseReconciliationClaim_spared {f : Fence} {u : Unit}
    (h : releaseReconciliationClaim now f s = .ok (u, s')) :
    Spared (some f.leaseToken) s s' := by
  simp only [releaseReconciliationClaim, bind_eq_ok, orRaise_eq_ok,
    Option.filter_eq_some_iff, Fence.matches, Bool.and_eq_true, Option.any_eq_true,
    beq_iff_eq, pure_eq_ok, Prod.mk.injEq] at h
  obtain ⟨-, -, j, ⟨hj, ⟨⟨⟨-, l, hl, htoken⟩, -⟩, hstatus⟩, -⟩, -, rfl⟩ := h
  refine Wrote.spared (.setJob hj (.unclaimed now hstatus ⟨l, hl, by rw [htoken]⟩)) rfl hj
    fun _ => rfl

-- =============================================================== claims

/-- A claim that got a job: the row it found, and the row it wrote with a
fresh token. -/
structure Claimed (s s' : Store) (r : GenerationRecord) (j : GenerationJob) : Prop where
  found : s.jobs.get r.jobId = some j
  written : s' = { s with jobs := s.jobs.modify r.jobId fun _ => r.job
                          nextUuid := s.nextUuid + 1 }
  move : JobMove s.nextUuid none false j r.job
  fencing : r.job.fencingToken = j.fencingToken + 1
  token : r.job.leaseToken = some s.nextUuid

/-- Such a claim, of an accepted job. -/
structure Taken (s s' : Store) (r : GenerationRecord) (j : GenerationJob) : Prop
    extends Claimed s s' r j where
  accepted : j.status = .accepted
  reserved : r.job.status = .reserved

theorem Claimed.jobs {r : GenerationRecord} (h : Claimed s s' r j) :
    JobsMoved s.nextUuid none false s.jobs s'.jobs := by
  rw [h.written]
  exact .modify h.found h.move

/-- Taking a free accepted job. -/
theorem takeClaim_taken {jobId : Nat} {workerId : String} {leaseSeconds : Nat}
    {r : Option GenerationRecord} (hj : s.jobs.get jobId = some j)
    (hfree : j.status = .accepted ∧ j.leaseToken = none)
    (h : takeClaim s jobId (j.claimed now (newLease now workerId leaseSeconds s))
      = (r, s')) : ∃ x, r = some x ∧ Taken s s' x j := by
  obtain ⟨rfl, rfl⟩ := Prod.mk.inj h
  refine ⟨_, rfl, ?_⟩
  exact { found := hj, written := rfl, move := .claimed now _ hfree.1 hfree.2 rfl
          fencing := rfl, token := rfl, accepted := hfree.1, reserved := rfl }

theorem claimable_iff {locked : Nat → Bool} {e : Nat × GenerationJob} :
    claimable locked e = true
      ↔ (e.2.status = .accepted ∧ e.2.leaseToken = none) ∧ locked e.1 = false := by
  simp [claimable, Option.isNone_iff_eq_none]

theorem claimAccepted_ok {locked : Nat → Bool} {tenantId jobId : Nat} {workerId : String}
    {leaseSeconds : Nat} {r : Option GenerationRecord}
    (h : claimAccepted now locked tenantId jobId workerId leaseSeconds s = .ok (r, s')) :
    (r = none ∧ s' = s) ∨ ∃ x j, r = some x ∧ Taken s s' x j := by
  simp only [claimAccepted, bind_eq_ok, pure_eq_ok] at h
  obtain ⟨-, -, h⟩ := h
  split at h
  · obtain ⟨rfl, rfl⟩ := Prod.mk.inj h
    exact Or.inl ⟨rfl, rfl⟩
  · next j hj =>
      rw [Option.filter_eq_some_iff, Bool.and_eq_true, claimable_iff] at hj
      obtain ⟨x, hx, htaken⟩ := takeClaim_taken hj.1 hj.2.2.1 h
      exact Or.inr ⟨x, j, hx, htaken⟩

theorem claimNextAccepted_ok {locked : Nat → Bool} {tenantId : Option Nat}
    {modalities : Option (List Modality)} {workerId : String} {leaseSeconds : Nat}
    {r : Option GenerationRecord}
    (h : claimNextAccepted now locked tenantId modalities workerId leaseSeconds s
      = .ok (r, s')) :
    (r = none ∧ s' = s) ∨ ∃ x j, r = some x ∧ Taken s s' x j := by
  simp only [claimNextAccepted, bind_eq_ok, pure_eq_ok] at h
  obtain ⟨-, -, h⟩ := h
  split at h
  · obtain ⟨rfl, rfl⟩ := Prod.mk.inj h
    exact Or.inl ⟨rfl, rfl⟩
  · next jobId j hhead =>
      have hmem := Table.mem_ordered.mp (List.mem_of_head? hhead)
      rw [Bool.and_eq_true, Bool.and_eq_true, claimable_iff] at hmem
      obtain ⟨x, hx, htaken⟩ := takeClaim_taken hmem.1 hmem.2.1.1.1 h
      exact Or.inr ⟨x, j, hx, htaken⟩

/-- Such a claim, of a job to be reconciled. -/
structure Retaken (s s' : Store) (r : GenerationRecord) (j : GenerationJob) : Prop
    extends Claimed s s' r j where
  unknown : j.status = .submittedUnknown
  kept : r.job.status = .submittedUnknown

theorem claimPendingReconciliation_ok {locked : Nat → Bool} {workerId : String}
    {leaseSeconds : Nat} {r : Option GenerationRecord}
    (h : claimPendingReconciliation now locked workerId leaseSeconds s = .ok (r, s')) :
    (r = none ∧ s' = s) ∨ ∃ x j, r = some x ∧ Retaken s s' x j := by
  simp only [claimPendingReconciliation, bind_eq_ok, pure_eq_ok] at h
  obtain ⟨-, -, h⟩ := h
  split at h
  · obtain ⟨rfl, rfl⟩ := Prod.mk.inj h
    exact Or.inl ⟨rfl, rfl⟩
  · next jobId j hhead =>
      have hmem := Table.mem_ordered.mp (List.mem_of_head? hhead)
      simp only [Bool.and_eq_true, beq_iff_eq] at hmem
      obtain ⟨hj, ⟨⟨⟨⟨hstatus, -⟩, -⟩, -⟩, -⟩, -⟩ := hmem
      obtain ⟨rfl, rfl⟩ := Prod.mk.inj h
      refine Or.inr ⟨_, j, rfl, ?_⟩
      exact { found := hj, written := rfl, move := .leased now _ hstatus rfl, fencing := rfl
              token := rfl, unknown := hstatus, kept := hstatus }

-- ============================================================ lifecycle

theorem cancelAccepted_wrote {tenantId actorUserId jobId : Nat} {u : Unit}
    (h : cancelAccepted now tenantId actorUserId jobId s = .ok (u, s')) :
    Wrote none s s' := by
  simp only [cancelAccepted, bind_eq_ok, orRaise_eq_ok, Option.filter_eq_some_iff] at h
  obtain ⟨j, ⟨hj, -⟩, h⟩ := h
  split at h
  · obtain ⟨-, rfl⟩ := Prod.mk.inj (Except.ok.inj h)
    exact .refl s
  · simp only [bind_eq_ok, raiseIf_eq_ok, not_not, pure_eq_ok, Prod.mk.injEq] at h
    obtain ⟨-, hstatus, -, rfl⟩ := h
    exact ⟨.modify hj (.cancelled now hstatus), rfl, rfl⟩

/-- Rewriting rows one after the other, each as it was first read. -/
theorem foldl_stalled {t : Table GenerationJob} (l : List (Nat × GenerationJob))
    (hl : ∀ e ∈ l, t.get e.1 = some e.2 ∧ e.2.status.inProgress = true)
    (hs : JobsMoved s.nextUuid none true t s.jobs)
    (hset : ∀ id j, t.get id = some j →
      s.jobs.get id = some j ∨ s.jobs.get id = some (j.stalled now)) :
    Swept { s with jobs := t }
      (l.foldl (fun s e => s.setJob e.1 (e.2.stalled now)) s) := by
  induction l generalizing s with
  | nil => exact ⟨hs, rfl, rfl⟩
  | cons e l ih =>
      obtain ⟨he, hprogress⟩ := hl e List.mem_cons_self
      have hget : ∀ id j, t.get id = some j →
          (s.setJob e.1 (e.2.stalled now)).jobs.get id = some j
            ∨ (s.setJob e.1 (e.2.stalled now)).jobs.get id = some (j.stalled now) := by
        intro id j hj
        by_cases hid : e.1 = id
        · subst hid
          obtain rfl := Option.some.inj (he.symm.trans hj)
          right
          rcases hset _ _ he with h | h <;> simp [Store.setJob, h]
        · rw [Store.setJob, Table.get_modify_ne _ hid]
          exact hset id j hj
      refine ih (fun x hx => hl x (List.mem_cons_of_mem _ hx)) ⟨?_, ?_⟩ hget
      · intro id j hj
        obtain ⟨j', hj', -⟩ := hs.old id j hj
        rcases hget id j hj with h | h
        · exact ⟨j, h, .same⟩
        · by_cases hid : e.1 = id
          · subst hid
            obtain rfl := Option.some.inj (he.symm.trans hj)
            exact ⟨_, h, .stalled now rfl hprogress⟩
          · rw [Store.setJob, Table.get_modify_ne _ hid] at h ⊢
            exact hs.old id j hj
      · intro id j' hj'
        rcases Table.get_modify_cases hj' with ⟨rfl, r, -, rfl⟩ | ⟨-, hj'⟩
        · exact ⟨e.2, he, .stalled now rfl hprogress⟩
        · exact hs.new id j' hj'

theorem reconcileStalledOnce_swept {staleSeconds limit n : Nat} {locked : Nat → Bool}
    (h : reconcileStalledOnce now staleSeconds limit locked s = .ok (n, s')) :
    Swept s s' := by
  simp only [reconcileStalledOnce, bind_eq_ok, pure_eq_ok, Prod.mk.injEq] at h
  obtain ⟨-, -, -, rfl⟩ := h
  refine foldl_stalled (t := s.jobs) _ ?_ (.refl _) fun id j hj => Or.inl hj
  intro e he
  obtain ⟨hget, hp⟩ := Table.mem_ordered.mp (List.mem_of_mem_take he)
  simp only [Bool.and_eq_true] at hp
  exact ⟨hget, hp.1.1⟩

/-- The first transaction of `resolve_failed` leaves a failed job. -/
theorem resolveFailedRequest_ok {tenantId jobId : Nat} {subject reason : String}
    {rid : Option Nat}
    (h : resolveFailedRequest now tenantId jobId subject reason s = .ok (rid, s')) :
    Wrote none s s' ∧ ∀ id, rid = some id → ∃ j', s'.jobs.get jobId = some j'
      ∧ j'.status = .failed ∧ j'.billingReservationId = some id
      ∧ j'.tenantId = tenantId := by
  simp only [resolveFailedRequest, bind_eq_ok, orRaise_eq_ok, Option.filter_eq_some_iff,
    beq_iff_eq] at h
  obtain ⟨j, ⟨hj, htenant⟩, h⟩ := h
  split at h
  · next hunknown =>
      simp only [bind_eq_ok, orRaise_eq_ok, pure_eq_ok, Prod.mk.injEq] at h
      obtain ⟨id, hid, rfl, rfl⟩ := h
      refine ⟨⟨.modify hj (.resolvedFailed now hunknown.1), rfl, rfl⟩, ?_⟩
      rintro _ ⟨⟩
      exact ⟨j.resolvedFailed now, by simp [Store.setJob, hj], rfl, hid, htenant⟩
  · split at h
    · next hfailed =>
        simp only [bind_eq_ok, orRaise_eq_ok, pure_eq_ok, Prod.mk.injEq] at h
        obtain ⟨id, hid, rfl, rfl⟩ := h
        refine ⟨.refl s, ?_⟩
        rintro _ ⟨⟩
        exact ⟨j, hj, hfailed.1, hid, htenant⟩
    · simp only [bind_eq_ok, pure_eq_ok, Prod.mk.injEq] at h
      obtain ⟨-, -, rfl, rfl⟩ := h
      exact ⟨.refl s, fun id hid => by cases hid⟩

theorem closeReconciliation_wrote {tenantId jobId : Nat}
    {payload : List (String × String)} (hj : s.jobs.get jobId = some j) :
    Wrote none s (closeReconciliation now tenantId jobId j payload s) :=
  ⟨.modify hj (.closed now), rfl, rfl⟩

theorem resolveFailedFinish_wrote {tenantId jobId : Nat} {subject : String} {u : Unit}
    (h : resolveFailedFinish now tenantId jobId subject s = .ok (u, s')) :
    Wrote none s s' := by
  simp only [resolveFailedFinish, bind_eq_ok, orRaise_eq_ok, Option.filter_eq_some_iff] at h
  obtain ⟨j, ⟨hj, -⟩, h⟩ := h
  split at h
  · obtain ⟨-, rfl⟩ := Prod.mk.inj (Except.ok.inj h)
    exact .refl s
  · simp only [bind_eq_ok, pure_eq_ok, Prod.mk.injEq] at h
    obtain ⟨-, -, -, rfl⟩ := h
    exact closeReconciliation_wrote hj

theorem markReconciliationResolved_wrote (tenantId jobId : Nat) (s : Store) :
    Wrote none s (markReconciliationResolved now tenantId jobId s) := by
  unfold markReconciliationResolved
  split
  · exact .refl s
  · next j hj =>
      rw [Option.filter_eq_some_iff] at hj
      exact closeReconciliation_wrote hj.1

end Mosaic.Generation
