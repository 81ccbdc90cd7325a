/-
Which holds of chat can still be settled.

# A dead end

Nothing settles the reservation of a request in `submitted_unknown`: no
worker is about to, the reconciler does not select it, and `stop` finds
the pointer of its conversation cleared. `SiteInv.stuck_step` is the step
lemma of that, over every act.

# Everything else

Of every other request the user and the two sweeps settle the hold, once
enough time has passed: `stop` and the lease sweep end it (`SiteInv.stops`,
`SiteInv.sweeps`), and at a time when every hold has expired a pass of
the reconciler settles every row it selects (`SiteInv.drains`), so passes
come to any given row (`SiteInv.settles`).
-/
import Mosaic.Chat.Proofs.Site

namespace Mosaic.Chat

open Lib Providers

variable {cfg : Config} {s s' : Store} {w : World} {x : Site} {id i T : Nat}
  {r r' : InferenceRequest} {b : Billing.BalanceReservation}
  {book : Catalog.PriceBook} {initial : Billing.Db}

-- ============================================================= dead end

/-- A release touches its own reservation only. -/
theorem step_release_other {db : Billing.Db} {now tenantId j : Nat} (hi : i ≠ j) :
    (Billing.step db (.release now .none tenantId j)).reservations.get i
      = db.reservations.get i := by
  simp only [Billing.step, Billing.Call.perform]
  split
  · next db' hdb =>
      simp only [bind_eq_ok, pure_eq_ok] at hdb
      obtain ⟨y, hy, rfl⟩ := hdb
      obtain hsame | ⟨b, -, -, hrep⟩ := Billing.release_row hy
      · rw [hsame]
      · exact hrep.other hi
  · rfl

/-- So does a capture. -/
theorem step_capture_other {db : Billing.Db} {now : Nat} {src : Billing.Sources}
    {q : Billing.CaptureRequest} (hi : i ≠ q.reservationId) :
    (Billing.step db (.capture now .none src q)).reservations.get i
      = db.reservations.get i := by
  simp only [Billing.step, Billing.Call.perform]
  split
  · next db' hdb =>
      simp only [bind_eq_ok, pure_eq_ok] at hdb
      obtain ⟨y, hy, rfl⟩ := hdb
      obtain hsame | ⟨b, amount, -, -, -, hrep⟩ := Billing.capture_row hy
      · rw [hsame]
      · exact hrep.other hi
  · rfl

/-- A call that settles nothing keeps every reservation. -/
theorem Booked.hold_kept (h : Booked book s s') (hbill : BillInv s)
    (hb : s.billing.reservations.get i = some b) :
    s'.billing.reservations.get i = some b := by
  cases h with
  | plain hsize hbilling hcompletes => rw [hbilling, hb]
  | offered r price ho =>
      obtain ⟨-, -, b', hins, -⟩ := ho.inserted hbill
      rw [hins]
      exact Table.get_insert_of_some hb _
  | completed j r r' price u hd => rw [hd.billing, hb]

/-- The reservation of a request is no other request's. -/
theorem ChatBooks.request_eq (h : ChatBooks book s) (hr : s.requests.get id = some r)
    (hres : r.billingReservationId = some i) {j : Nat} {y : InferenceRequest}
    (hy : s.requests.get j = some y) (hyres : y.billingReservationId = some i) :
    j = id := by
  obtain ⟨k, b, hk, hb, -, hid, -⟩ := h.holds id r hr
  obtain ⟨l, c, hl, hc, -, hjd, -⟩ := h.holds j y hy
  obtain rfl : i = k := Option.some.inj (hres.symm.trans hk)
  obtain rfl : i = l := Option.some.inj (hyres.symm.trans hl)
  obtain rfl := Option.some.inj (hb.symm.trans hc)
  exact hjd.symm.trans hid

/-- Whoever may settle a reservation has seen its request end in a status
the reconciler selects. -/
theorem SiteInv.settles_only (h : SiteInv cfg initial x)
    (hr : x.world.store.requests.get id = some r)
    (hres : r.billingReservationId = some i) {pid : Nat} {p : Process}
    (hp : x.world.processes.get pid = some p) (hpc : p.pc.settling = true)
    (hpres : p.current.reservationId = some i) : settledStatus r.status = true := by
  obtain ⟨y, hy, hyres⟩ := (h.processes pid p hp).placed
  obtain ⟨z, hz, hst⟩ := (h.processes pid p hp).ready hpc
  have hid := h.books.request_eq hr hres hy (hyres.trans hpres)
  rw [hid] at hz
  obtain rfl := Option.some.inj (hr.symm.trans hz)
  exact hst

/-- Nothing moves the hold of a request whose outcome is unknown. -/
theorem SiteInv.stuck_step (h : SiteInv cfg initial x)
    (hr : x.world.store.requests.get id = some r) (hst : r.status = .submittedUnknown)
    (hres : r.billingReservationId = some i)
    (hb : x.world.store.billing.reservations.get i = some b) (act : SiteAct) :
    (siteStep cfg x act).world.store.requests.get id = some r
      ∧ (siteStep cfg x act).world.store.billing.reservations.get i = some b := by
  have hfinal : r.status.final = true := by rw [hst]; rfl
  have hunselected : settledStatus r.status ≠ true := by
    rw [hst]
    simp [settledStatus]
  cases act with
  | party act hact =>
      have hmove := worldStep_partyMove cfg h.fleet.chat h.bill hact
      refine ⟨hmove.storeMove.final_kept hr hfinal, ?_⟩
      show (worldStep cfg x.world act).store.billing.reservations.get i = some b
      cases hmove with
      | booked who hsettles heff hbk => exact hbk.hold_kept h.bill hb
      | settled pid p hp call hcall hs =>
          rw [hs]
          cases hcall with
          | release now j hpc hpres =>
              obtain ⟨region, hpc⟩ := hpc
              refine (step_release_other ?_).trans hb
              rintro rfl
              exact hunselected (h.settles_only hr hres hp (by rw [hpc]; rfl) hpres)
          | capture now j hpc hpres =>
              refine (step_capture_other ?_).trans hb
              rintro rfl
              exact hunselected (h.settles_only hr hres hp (by rw [hpc]; rfl) hpres)
  | survey now limit =>
      unfold siteStep
      simp only
      split
      · exact ⟨hr, hb⟩
      · exact ⟨hr, hb⟩
  | repair pass elapsed db =>
      unfold siteStep
      simp only
      split
      · exact ⟨hr, hb⟩
      · next q hq =>
          obtain ⟨q', s', hstep⟩ : ∃ q' s',
              reconcilerStep cfg.book elapsed db q x.world.store = (q', s') := ⟨_, _, rfl⟩
          rw [hstep]
          show s'.requests.get id = some r ∧ s'.billing.reservations.get i = some b
          cases (reconcilerStep_moved hstep).1 with
          | nothing hs =>
              subst hs
              exact ⟨hr, hb⟩
          | settled row hrow call hcall hs =>
              subst hs
              refine ⟨hr, ?_⟩
              -- the row of the pass would be this request's
              have hne : i ≠ row.reservationId := by
                rintro rfl
                obtain ⟨b', y, hb', hy, -, hover⟩ := h.rows pass q hq row hrow
                obtain rfl := Option.some.inj (hb.symm.trans hb')
                obtain ⟨-, z, hz, -, hzres⟩ := h.books.requested _ b hb
                have hid := h.books.request_eq hr hres hz hzres
                rw [hid] at hy
                obtain rfl := Option.some.inj (hr.symm.trans hy)
                exact hunselected hover
              cases hcall with
              | release now => exact (step_release_other hne).trans hb
              | capture now hsucc => exact (step_capture_other hne).trans hb

theorem SiteInv.stuck (h : SiteInv cfg initial x)
    (hr : x.world.store.requests.get id = some r) (hst : r.status = .submittedUnknown)
    (hres : r.billingReservationId = some i)
    (hb : x.world.store.billing.reservations.get i = some b) (acts : List SiteAct) :
    (run (siteStep cfg) x acts).world.store.billing.reservations.get i = some b := by
  induction acts generalizing x with
  | nil => exact hb
  | cons act acts ih =>
      obtain ⟨hr', hb'⟩ := h.stuck_step hr hst hres hb act
      exact ih (h.step act) hr' hb'

-- ========================================================== ending it

/-- A request nobody has claimed is stopped at once. -/
theorem ChatInv.stopQueued_ok (h : ChatInv s) (hr : s.requests.get id = some r)
    (hq : r.status = .queued) (now : Nat) {c : Conversation}
    (hc : s.conversations.get r.conversationId = some c)
    (hpointed : c.activeInferenceRequestId = some id) :
    ∃ y, stopQueued now s r.conversationId id r = .ok y
      ∧ ∃ r', y.2.requests.get id = some r' ∧ r'.leaseExpiresAt = r.leaseExpiresAt
        ∧ r'.status = .stopped := by
  have hact : r.status.active = true := by rw [hq]; rfl
  obtain ⟨m, hm, -, hms, hmt, hmc, -⟩ := h.link.linked id r hr hact
  have hmfr : messageForRequest s r.tenantId r = some m := by
    rw [messageForRequest, Option.filter_eq_some_iff]
    exact ⟨hm, by simp [hmt, hmc]⟩
  simp only [stopQueued, hmfr, hms, if_true, h.appendStoppedEvent_eq hr hact,
    bind_eq_ok, pure_eq_ok, clearActiveOnRow, orRaise_eq_ok, Option.filter_eq_some_iff]
  exact ⟨_, ⟨_, ⟨c, ⟨hc, by simp [hpointed]⟩, rfl⟩, rfl⟩, _,
    (Table.replaced_modify hr _).new, rfl, rfl⟩

/-- A user stops its own active request. -/
theorem SiteInv.stops (h : SiteInv cfg initial x)
    (hr : x.world.store.requests.get id = some r) (hact : r.status.active = true)
    (now : Nat) :
    ∃ actor s', stop now r.tenantId actor r.conversationId r.requestId x.world.store
        = .ok s' ∧ ∃ r', s'.2.requests.get id = some r'
          ∧ r'.leaseExpiresAt = r.leaseExpiresAt
          ∧ r'.status = if r.status = .queued then .stopped else .stopRequested := by
  obtain ⟨c, hc, hct, hactor⟩ := h.owner.owner id r hr
  obtain ⟨c', hc', hpointed⟩ := h.fleet.chat.pointer.complete id r hr hact
  obtain rfl := Option.some.inj (hc.symm.trans hc')
  have hlock : lockConversation x.world.store r.tenantId c.createdByUserId
      r.conversationId = some c := by
    rw [lockConversation, Option.filter_eq_some_iff]
    exact ⟨hc, by simp [hct]⟩
  have hfind : x.world.store.requests.find (fun y => y.tenantId == r.tenantId
      && y.actorUserId == some c.createdByUserId
      && y.conversationId == r.conversationId && y.requestId == r.requestId)
      = some (id, r) := by
    cases hf : x.world.store.requests.find (fun y => y.tenantId == r.tenantId
        && y.actorUserId == some c.createdByUserId
        && y.conversationId == r.conversationId && y.requestId == r.requestId) with
    | none =>
        have := Table.find_none hf hr
        simp [hactor] at this
    | some y =>
        obtain ⟨hget, hp⟩ := Table.find_some hf
        simp only [Bool.and_eq_true, beq_iff_eq] at hp
        have hid := h.owner.unique id y.1 r y.2 hr hget hp.2
        obtain ⟨j, y⟩ := y
        simp only at hid hget
        subst hid
        obtain rfl := Option.some.inj (hr.symm.trans hget)
        rfl
  have hterm : terminalRequestStatus r.status ≠ true := by
    cases hs : r.status <;> simp_all [RequestStatus.active, terminalRequestStatus]
  by_cases hq : r.status = .queued
  · obtain ⟨y, hy, hrow⟩ := h.fleet.chat.stopQueued_ok hr hq now hc hpointed
    refine ⟨c.createdByUserId, (⟨r.requestId, .stopped, true, y.1⟩, y.2), ?_, ?_⟩
    · simp only [stop, bind_eq_ok, orRaise_eq_ok]
      refine ⟨c, hlock, (id, r), hfind, ?_⟩
      rw [if_neg hterm]
      simp only [bind_eq_ok, raiseIf_eq_ok]
      refine ⟨(), by simp [hpointed], ?_⟩
      rw [if_pos hq]
      simp only [bind_eq_ok]
      exact ⟨y, hy, rfl⟩
    · rw [if_pos hq]
      exact hrow
  · refine ⟨c.createdByUserId, (⟨r.requestId, .stopRequested, true, r.lastEventSequence⟩,
      { x.world.store with requests := x.world.store.requests.modify id fun r =>
          { r with status := .stopRequested, cancelRequestedAt := some now
                   updatedAt := now } }), ?_,
      _, (Table.replaced_modify hr _).new, rfl, by rw [if_neg hq]⟩
    simp only [stop, bind_eq_ok, orRaise_eq_ok]
    refine ⟨c, hlock, (id, r), hfind, ?_⟩
    rw [if_neg hterm]
    simp only [bind_eq_ok, raiseIf_eq_ok]
    refine ⟨(), by simp [hpointed], ?_⟩
    rw [if_neg hq]
    rfl

-- ========================================================== lease sweep

/-- The requests a worker or a lease sweep still has to end. -/
def openRequests (s : Store) : Finset Nat :=
  (Finset.range s.requests.nextId).filter fun j =>
    ((s.requests.get j).any fun y => y.status.active) = true

theorem mem_openRequests {j : Nat} :
    j ∈ openRequests s ↔ ∃ y, s.requests.get j = some y ∧ y.status.active = true := by
  unfold openRequests
  rw [Finset.mem_filter, Finset.mem_range]
  constructor
  · rintro ⟨-, h⟩
    simpa [Option.any_eq_true] using h
  · rintro ⟨y, hy, hact⟩
    exact ⟨Table.lt_nextId hy, by simp [hy, hact]⟩

/-- The sweep ends a row it selected. -/
theorem ChatInv.swept_row (h : ChatInv s) (hr : s.requests.get id = some r)
    (hst : r.status = .running ∨ r.status = .stopRequested) (now : Nat) :
    ∃ r', (reconcileExpiredRow now s id).requests.get id = some r'
      ∧ r'.status.final = true
      ∧ (r.status = .stopRequested → r'.status = .stopped) := by
  have hact : r.status.active = true := by
    rcases hst with hst | hst
    · rw [hst]
      rfl
    · rw [hst]
      rfl
  obtain ⟨m, hm, -, -, hmt, hmc, -⟩ := h.link.linked id r hr hact
  obtain ⟨c, hc, hpointed⟩ := h.pointer.complete id r hr hact
  obtain ⟨y, hy, -, hct, -⟩ := h.pointer.sound _ c id hc hpointed
  obtain rfl := Option.some.inj (hr.symm.trans hy)
  have hmfr : messageForRequest s r.tenantId r = some m := by
    rw [messageForRequest, Option.filter_eq_some_iff]
    exact ⟨hm, by simp [hmt, hmc]⟩
  have hpc : pointingConversation s id r = some c := by
    rw [pointingConversation, Option.filter_eq_some_iff]
    exact ⟨hc, by simp [hct, hpointed]⟩
  simp only [reconcileExpiredRow, hr, hmfr, hpc]
  by_cases hrun : r.status = .running
  · rw [if_pos hrun]
    refine ⟨_, (Table.replaced_modify hr _).new, rfl, fun hstop => ?_⟩
    rw [hrun] at hstop
    cases hstop
  · rw [if_neg hrun]
    exact ⟨_, (Table.replaced_modify hr _).new, rfl, fun _ => rfl⟩

/-- And leaves the others alone. -/
theorem reconcileExpiredRow_other {now j : Nat} (hj : id ≠ j) :
    (reconcileExpiredRow now s j).requests.get id = s.requests.get id := by
  unfold reconcileExpiredRow
  split
  · rfl
  · split
    · dsimp only
      split
      · exact Table.get_modify_ne _ hj.symm _
      · exact Table.get_modify_ne _ hj.symm _
    · rfl

/-- What a whole sweep does to a row it selected, and to one it did not. -/
theorem ChatInv.swept (h : ChatInv s) (now : Nat) (ids : List Nat) :
    (∀ j y, s.requests.get j = some y → j ∉ ids →
        (ids.foldl (reconcileExpiredRow now) s).requests.get j = some y)
      ∧ ∀ j y, s.requests.get j = some y →
        (y.status = .running ∨ y.status = .stopRequested) → j ∈ ids →
        ∃ y', (ids.foldl (reconcileExpiredRow now) s).requests.get j = some y'
          ∧ y'.status.final = true ∧ (y.status = .stopRequested → y'.status = .stopped) := by
  induction ids generalizing s with
  | nil => exact ⟨fun j y hy _ => hy, fun j y _ _ hj => by cases hj⟩
  | cons k ids ih =>
      have hinv : ChatInv (reconcileExpiredRow now s k) := by
        rcases reconcileExpiredRow_swept h now k with heq | hswept
        · rw [heq]
          exact h
        · exact h.effect hswept.effect
      obtain ⟨hkeep, hend⟩ := ih hinv
      refine ⟨fun j y hy hj => ?_, fun j y hy hst hj => ?_⟩
      · rw [List.mem_cons, not_or] at hj
        exact hkeep j y ((reconcileExpiredRow_other hj.1).trans hy) hj.2
      · by_cases hjk : j = k
        · subst hjk
          obtain ⟨y', hy', hfinal, hstop⟩ := h.swept_row hy hst now
          have hkept := Effects.final_kept
            (Effects.sweep rfl (reconcileExpired_sweep hinv now ids)) hy' hfinal
          exact ⟨y', hkept, hfinal, hstop⟩
        · exact hend j y ((reconcileExpiredRow_other hjk).trans hy) hst
            ((List.mem_cons.mp hj).resolve_left hjk)

theorem mem_expiredRequests {now limit j : Nat} {locked : Nat → Bool}
    (h : j ∈ expiredRequests s now limit locked) :
    ∃ y, s.requests.get j = some y
      ∧ (y.status = .running ∨ y.status = .stopRequested) := by
  obtain ⟨e, he, rfl⟩ := List.mem_map.mp h
  obtain ⟨hget, hp⟩ := Table.mem_ordered.mp (List.mem_of_mem_take he)
  simp only [leaseExpired, Bool.and_eq_true, Bool.or_eq_true, beq_iff_eq] at hp
  exact ⟨e.2, hget, hp.1.1⟩

theorem expiredRequests_nonempty (hr : s.requests.get id = some r)
    (hst : r.status = .stopRequested) (hlease : r.leaseExpiresAt.all (· ≤ T) = true)
    {limit : Nat} (hlimit : 0 < limit) :
    ∃ j, j ∈ expiredRequests s T limit fun _ => false := by
  unfold expiredRequests
  generalize hl : s.requests.ordered _ _ = l
  have hmem : (id, r) ∈ l := by
    rw [← hl, Table.mem_ordered]
    exact ⟨hr, by simp [leaseExpired, hst, hlease]⟩
  obtain ⟨e, es, rfl⟩ := List.exists_cons_of_ne_nil (List.ne_nil_of_mem hmem)
  obtain ⟨n, rfl⟩ := Nat.exists_eq_succ_of_ne_zero hlimit.ne'
  exact ⟨e.1, List.mem_map_of_mem (by simp)⟩

/-- A sweep at a time when the lease is over ends the request or leaves
fewer to end. -/
theorem ChatInv.sweep_progress (h : ChatInv s) (hr : s.requests.get id = some r)
    (hst : r.status = .stopRequested) (hlease : r.leaseExpiresAt.all (· ≤ T) = true)
    (limit : Nat) (hlimit : 0 < limit) :
    let s' := (expiredRequests s T limit fun _ => false).foldl (reconcileExpiredRow T) s
    (∃ r', s'.requests.get id = some r' ∧ r'.status = .stopped)
      ∨ (s'.requests.get id = some r ∧ (openRequests s').card < (openRequests s).card) := by
  intro s'
  obtain ⟨hkeep, hend⟩ := h.swept T (expiredRequests s T limit fun _ => false)
  by_cases hmem : id ∈ expiredRequests s T limit fun _ => false
  · obtain ⟨r', hr', -, hstop⟩ := hend id r hr (Or.inr hst) hmem
    exact Or.inl ⟨r', hr', hstop hst⟩
  · right
    refine ⟨hkeep id r hr hmem, Finset.card_lt_card ?_⟩
    obtain ⟨j, hj⟩ := expiredRequests_nonempty hr hst hlease hlimit
    obtain ⟨y, hy, hyst⟩ := mem_expiredRequests hj
    obtain ⟨y', hy', hfinal, -⟩ := hend j y hy hyst hj
    refine ⟨fun k hk => ?_, fun hsub => ?_⟩
    · -- what is over stays over
      obtain ⟨z', hz', hact'⟩ := mem_openRequests.mp hk
      have hlt := Table.lt_nextId hz'
      rw [reconcileExpiredRow_size] at hlt
      obtain ⟨z, hz⟩ : ∃ z, s.requests.get k = some z := ⟨_, List.getElem?_eq_getElem hlt⟩
      refine mem_openRequests.mpr ⟨z, hz, ?_⟩
      refine (h.pointer.status k z hz).resolve_right fun hzfinal => ?_
      have hkept := Effects.final_kept
        (Effects.sweep rfl (reconcileExpired_sweep h T
          (expiredRequests s T limit fun _ => false))) hz hzfinal
      obtain rfl := Option.some.inj (hz'.symm.trans hkept)
      simp [RequestStatus.not_final_of_active hact'] at hzfinal
    · have hopen : j ∈ openRequests s := by
        refine mem_openRequests.mpr ⟨y, hy, ?_⟩
        rcases hyst with hyst | hyst
        · rw [hyst]
          rfl
        · rw [hyst]
          rfl
      obtain ⟨z, hz, hact⟩ := mem_openRequests.mp (hsub hopen)
      obtain rfl := Option.some.inj (hy'.symm.trans hz)
      simp [RequestStatus.not_final_of_active hact] at hfinal

-- ============================================================ the clock

/-- The reading an act of the API, a claim or a survey starts from. -/
def Op.clock? : Op → Option Nat
  | .create now .. => some now
  | .submit now .. => some now
  | .regenerate now .. => some now
  | .stop now .. => some now
  | .reconcileExpiredOnce now .. => some now
  | _ => none

def SiteAct.clock? : SiteAct → Option Nat
  | .party (.api op _) _ => op.clock?
  | .party (.claim now ..) _ => some now
  | .party _ _ => none
  | .survey now _ => some now
  | .repair .. => none

/-- Acts that come no earlier than `t`. -/
def After (t : Nat) (acts : List SiteAct) : Prop :=
  ∀ a ∈ acts, ∀ n, a.clock? = some n → t ≤ n

theorem after_nil (t : Nat) : After t [] := fun _ ha => by cases ha

theorem After.append {t : Nat} {as bs : List SiteAct} (ha : After t as)
    (hb : After t bs) : After t (as ++ bs) := by
  intro a hmem
  rcases List.mem_append.mp hmem with hmem | hmem
  · exact ha a hmem
  · exact hb a hmem

theorem after_singleton {t : Nat} {a : SiteAct} (h : ∀ n, a.clock? = some n → t ≤ n) :
    After t [a] := by
  intro a' ha
  obtain rfl := List.mem_singleton.mp ha
  exact h

-- ============================================================ ending it

def stopAct (now tenantId actorUserId conversationId requestId : Nat) : SiteAct :=
  .party (.api (.stop now tenantId actorUserId conversationId requestId) rfl) rfl

/-- `reconcile_expired_once` with its default limit, no row being locked
by anybody else. -/
def sweepAct (now : Nat) : SiteAct :=
  .party (.api (.reconcileExpiredOnce now 50 fun _ => false) rfl) rfl

theorem sweepAct_store (x : Site) (now : Nat) :
    (siteStep cfg x (sweepAct now)).world.store
      = (expiredRequests x.world.store now 50 fun _ => false).foldl
        (reconcileExpiredRow now) x.world.store := rfl

/-- Sweeps come to every request somebody asked to stop. -/
theorem SiteInv.sweeps {n : Nat} (h : SiteInv cfg initial x)
    (hr : x.world.store.requests.get id = some r) (hst : r.status = .stopRequested)
    (hlease : r.leaseExpiresAt.all (· ≤ T) = true)
    (hn : (openRequests x.world.store).card ≤ n) :
    ∃ acts, After T acts
      ∧ (run (siteStep cfg) x acts).world.store.billing = x.world.store.billing
      ∧ ∃ r', (run (siteStep cfg) x acts).world.store.requests.get id = some r'
        ∧ r'.status = .stopped := by
  induction n generalizing x with
  | zero =>
      have hmem : id ∈ openRequests x.world.store :=
        mem_openRequests.mpr ⟨r, hr, by rw [hst]; rfl⟩
      have := Finset.card_pos.mpr ⟨id, hmem⟩
      omega
  | succ n ih =>
      have hbilling : (siteStep cfg x (sweepAct T)).world.store.billing
          = x.world.store.billing := by
        rw [sweepAct_store]
        exact (Effects.unbooked (Effects.sweep rfl (reconcileExpired_sweep h.fleet.chat T _))
          rfl rfl (reconcileExpiredRow_size T _)).1
      have hafter : After T [sweepAct T] :=
        after_singleton fun m hm => (Option.some.inj hm).le
      rcases h.fleet.chat.sweep_progress hr hst hlease 50 (by omega) with
        hdone | ⟨hkept, hless⟩
      · exact ⟨[sweepAct T], hafter, hbilling, hdone⟩
      · obtain ⟨acts, hacts, hb, hdone⟩ := ih (h.step (sweepAct T)) hkept
          (by rw [sweepAct_store]; omega)
        exact ⟨sweepAct T :: acts, hafter.append hacts, hb.trans hbilling, hdone⟩

/-- A request that is not unknown can be brought to an end the reconciler
selects, at any time after its lease. -/
theorem SiteInv.ends (h : SiteInv cfg initial x)
    (hr : x.world.store.requests.get id = some r) (hst : r.status ≠ .submittedUnknown)
    (hlease : r.leaseExpiresAt.all (· ≤ T) = true) :
    ∃ acts, After T acts
      ∧ (run (siteStep cfg) x acts).world.store.billing = x.world.store.billing
      ∧ ∃ r', (run (siteStep cfg) x acts).world.store.requests.get id = some r'
        ∧ settledStatus r'.status = true := by
  rcases h.fleet.chat.pointer.status id r hr with hact | hfinal
  · obtain ⟨actor, y, hstop, r', hr', hlease', hst'⟩ := h.stops hr hact T
    let act := stopAct T r.tenantId actor r.conversationId r.requestId
    have hperform : Op.perform cfg.book x.world.store
        (.stop T r.tenantId actor r.conversationId r.requestId) = .ok y.2 := by
      simp only [Op.perform, hstop]
      rfl
    have hstore : (siteStep cfg x act).world.store = y.2 := step_of_ok hperform
    have hbilling : (siteStep cfg x act).world.store.billing = x.world.store.billing := by
      rw [hstore]
      exact ((perform_effects h.fleet.chat hperform).unbooked rfl rfl (stop_size hstop)).1
    have hafter : After T [act] := after_singleton fun m hm => (Option.some.inj hm).le
    rw [← hstore] at hr'
    by_cases hq : r.status = .queued
    · rw [if_pos hq] at hst'
      exact ⟨[act], hafter, hbilling, r', hr', by rw [hst']; rfl⟩
    · rw [if_neg hq] at hst'
      obtain ⟨acts, hacts, hb, r₂, hr₂, hst₂⟩ := (h.step act).sweeps hr' hst'
        (by rw [hlease']; exact hlease) le_rfl
      exact ⟨act :: acts, hafter.append hacts, hb.trans hbilling, r₂, hr₂, by rw [hst₂]; rfl⟩
  · refine ⟨[], after_nil T, rfl, r, hr, ?_⟩
    cases hs : r.status <;> simp_all [RequestStatus.final, settledStatus]

-- ============================================================ the passes

/-- Every pending hold has expired by `T`. -/
def Due (T : Nat) (s : Store) : Prop :=
  ∀ i b, s.billing.reservations.get i = some b → b.status = .pending → b.expiresAt ≤ T

/-- A selected row nobody has settled yet. -/
structure RowOpen (s : Store) (row : SettlementRow) (b : Billing.BalanceReservation)
    (r : InferenceRequest) : Prop where
  reservation : s.billing.reservations.get row.reservationId = some b
  pending : b.status = .pending
  tenant : row.tenantId = b.tenantId
  request : s.requests.get b.sourceId = some r
  status : r.status = row.status
  metered : row.status = .succeeded → row.usageId ≠ none

/-- What a pass does to the store at a time when every hold has expired:
it frees the hold `i`. -/
structure Freed (s s' : Store) (i : Nat) : Prop where
  requests : s'.requests = s.requests
  settled : ∀ b, s'.billing.reservations.get i = some b → b.status ≠ .pending
  other : ∀ j, j ≠ i → s'.billing.reservations.get j = s.billing.reservations.get j

/-- A pending hold of a site can be released at once. -/
theorem SiteInv.releases (h : SiteInv cfg initial x)
    (hb : x.world.store.billing.reservations.get i = some b) (hp : b.status = .pending) :
    ∃ s', releaseHold T b.tenantId i x.world.store = .ok ((), s')
      ∧ Freed x.world.store s' i := by
  obtain ⟨y, hy, hrep⟩ := Billing.release_pending h.money h.books.accounts hb hp T
  refine ⟨{ x.world.store with billing := y.2 }, ?_, rfl, ?_, ?_⟩
  · simp only [releaseHold, hy]
    rfl
  · intro b' hb'
    obtain rfl := Option.some.inj (hrep.new.symm.trans hb')
    simp
  · intro j hj
    exact hrep.other hj

/-- The capture of a succeeded row finds its hold expired. -/
theorem SiteInv.capture_expired (h : SiteInv cfg initial x) (hdue : Due T x.world.store)
    {row : SettlementRow} (ho : RowOpen x.world.store row b r)
    (hsucc : row.status = .succeeded) :
    ∃ e, captureHold cfg.book T row.tenantId row.reservationId none x.world.store
      = .error e ∧ e.isReservationExpired = true := by
  obtain ⟨k, u, hu, hut, hus⟩ := h.books.metered _ r ho.request (ho.status.trans hsucc)
  obtain ⟨hst, y, hy, hyt, -⟩ := h.books.requested _ b ho.reservation
  obtain rfl := Option.some.inj (ho.request.symm.trans hy)
  have hm : Billing.Meters b u :=
    ⟨hut.trans hyt, Billing.usageSource?_eq_some.mpr (Or.inl ⟨hst, hus⟩)⟩
  have hcap := Billing.capture_expired h.books.accounts ho.reservation ho.pending hu hm
    (hdue _ b ho.reservation ho.pending)
  refine ⟨.billing (.conflict Billing.RESERVATION_EXPIRED "该预留已过期"), ?_, by
    simp [ChatError.isReservationExpired]⟩
  simp only [captureHold, ho.tenant, hcap]
  rfl

/-- A pass takes its step. -/
theorem siteStep_repair (cfg : Config) {pass : Nat} {p p' : Reconciler}
    (hpass : x.passes.get pass = some p)
    (hstep : reconcilerStep cfg.book 0 .committed p x.world.store = (p', s')) :
    siteStep cfg x (.repair pass 0 .committed)
      = { world := { x.world with store := s' }
          passes := x.passes.modify pass fun _ => p' } := by
  simp only [siteStep, hpass, hstep]

/-- The next row of a pass is settled in one step, or in two. -/
theorem SiteInv.row_settles (h : SiteInv cfg initial x) (hdue : Due T x.world.store)
    {pass : Nat} {row : SettlementRow} {rows : List SettlementRow}
    (hpass : x.passes.get pass = some ⟨row :: rows, T, .next⟩)
    (ho : RowOpen x.world.store row b r) :
    ∃ acts, After T acts
      ∧ (run (siteStep cfg) x acts).passes.get pass = some ⟨rows, T, .next⟩
      ∧ Freed x.world.store (run (siteStep cfg) x acts).world.store row.reservationId := by
  obtain ⟨s', hrelease, hfreed⟩ := h.releases (T := T) ho.reservation ho.pending
  rw [← ho.tenant] at hrelease
  have hafter : After T [.repair pass 0 .committed] :=
    after_singleton fun m hm => by cases hm
  by_cases hsucc : row.status = .succeeded
  · obtain ⟨e, hcapture, hexpired⟩ := h.capture_expired hdue ho hsucc
    have hfirst : reconcilerStep cfg.book 0 .committed ⟨row :: rows, T, .next⟩
        x.world.store = (⟨rows, T, .releaseExpired row⟩, x.world.store) := by
      simp only [reconcilerStep, if_pos hsucc, if_neg (ho.metered hsucc),
        Reconciler.capture, Nat.add_zero, hcapture, if_pos hexpired]
    have hsecond : reconcilerStep cfg.book 0 .committed ⟨rows, T, .releaseExpired row⟩
        x.world.store = (⟨rows, T, .next⟩, s') := by
      simp only [reconcilerStep, Reconciler.release, Nat.add_zero, hrelease]
      rfl
    have hmid := siteStep_repair cfg hpass hfirst
    have hget : (siteStep cfg x (.repair pass 0 .committed)).passes.get pass
        = some ⟨rows, T, .releaseExpired row⟩ := by
      rw [hmid, Table.get_modify_self, hpass]
      rfl
    have hstore : (siteStep cfg x (.repair pass 0 .committed)).world.store
        = x.world.store := by rw [hmid]
    have hlast := siteStep_repair cfg hget (hstore.symm ▸ hsecond)
    refine ⟨[.repair pass 0 .committed, .repair pass 0 .committed],
      hafter.append hafter, ?_⟩
    simp only [run_cons, run_nil, hlast]
    exact ⟨by rw [Table.get_modify_self, hget]; rfl, hfreed⟩
  · refine ⟨[.repair pass 0 .committed], hafter, ?_⟩
    have hstep : reconcilerStep cfg.book 0 .committed ⟨row :: rows, T, .next⟩
        x.world.store = (⟨rows, T, .next⟩, s') := by
      simp only [reconcilerStep, if_neg hsucc, Reconciler.release, Nat.add_zero, hrelease]
      rfl
    simp only [run_cons, run_nil, siteStep_repair cfg hpass hstep]
    exact ⟨by rw [Table.get_modify_self, hpass]; rfl, hfreed⟩

/-- A pass frees every row it selected, one after the other. -/
theorem SiteInv.drains {rows : List SettlementRow} (h : SiteInv cfg initial x)
    (hdue : Due T x.world.store) {pass : Nat}
    (hpass : x.passes.get pass = some ⟨rows, T, .next⟩)
    (hopen : ∀ row ∈ rows, ∃ b r, RowOpen x.world.store row b r)
    (hnodup : (rows.map (·.reservationId)).Nodup) :
    ∃ acts, After T acts
      ∧ (run (siteStep cfg) x acts).world.store.requests = x.world.store.requests
      ∧ (∀ row ∈ rows, ∀ b, (run (siteStep cfg) x acts).world.store.billing.reservations.get
          row.reservationId = some b → b.status ≠ .pending)
      ∧ ∀ j, j ∉ rows.map (·.reservationId) →
          (run (siteStep cfg) x acts).world.store.billing.reservations.get j
            = x.world.store.billing.reservations.get j := by
  induction rows generalizing x with
  | nil => exact ⟨[], after_nil T, rfl, fun row hrow => by (cases hrow), fun _ _ => rfl⟩
  | cons row rows ih =>
      obtain ⟨b, r, ho⟩ := hopen row List.mem_cons_self
      obtain ⟨acts, hacts, hpass', hfreed⟩ := h.row_settles hdue hpass ho
      rw [List.map_cons, List.nodup_cons] at hnodup
      have hnext : SiteInv cfg initial (run (siteStep cfg) x acts) :=
        run_invariant (fun x a h => h.step a) h acts
      -- the first row's hold is nobody else's, so the others are still open
      have hdue' : Due T (run (siteStep cfg) x acts).world.store := by
        intro j c hc hp
        by_cases hj : j = row.reservationId
        · subst hj
          exact absurd hp (hfreed.settled c hc)
        · rw [hfreed.other j hj] at hc
          exact hdue j c hc hp
      have hopen' : ∀ row' ∈ rows, ∃ b r,
          RowOpen (run (siteStep cfg) x acts).world.store row' b r := by
        intro row' hrow'
        obtain ⟨c, y, hc⟩ := hopen row' (List.mem_cons_of_mem _ hrow')
        have hne : row'.reservationId ≠ row.reservationId := by
          intro heq
          exact hnodup.1 (heq ▸ List.mem_map_of_mem hrow')
        refine ⟨c, y, (hfreed.other _ hne).trans hc.reservation, hc.pending, hc.tenant, ?_,
          hc.status, hc.metered⟩
        rw [hfreed.requests]
        exact hc.request
      obtain ⟨more, hmore, hreq, hset, hother⟩ := ih hnext hdue' hpass' hopen' hnodup.2
      refine ⟨acts ++ more, hacts.append hmore, ?_, ?_, ?_⟩
      · rw [run_append, hreq, hfreed.requests]
      · intro row' hrow' c hc
        rw [run_append] at hc
        rcases List.mem_cons.mp hrow' with rfl | hrow'
        · rw [hother _ hnodup.1] at hc
          exact hfreed.settled c hc
        · exact hset row' hrow' c hc
      · intro j hj
        rw [List.map_cons, List.mem_cons, not_or] at hj
        rw [run_append, hother j hj.2, hfreed.other j hj.1]

/-- The holds a pass still has to settle. -/
def pendingHolds (s : Store) : Finset Nat :=
  (Finset.range s.billing.reservations.nextId).filter fun j =>
    ((s.billing.reservations.get j).any fun b => b.status == .pending) = true

theorem mem_pendingHolds {j : Nat} :
    j ∈ pendingHolds s ↔ ∃ b, s.billing.reservations.get j = some b
      ∧ b.status = .pending := by
  unfold pendingHolds
  rw [Finset.mem_filter, Finset.mem_range]
  constructor
  · rintro ⟨-, h⟩
    simpa [Option.any_eq_true] using h
  · rintro ⟨b, hb, hp⟩
    exact ⟨Table.lt_nextId hb, by simp [hb, hp]⟩

/-- A pass selects each reservation once. -/
theorem nodup_settlementRows (limit : Nat) (s : Store) :
    ((settlementRows limit s).map (·.reservationId)).Nodup := by
  have hkey : ∀ e row, settlementRow s e = some row → row.reservationId = e.1 := by
    intro e row hrow
    unfold settlementRow at hrow
    split at hrow
    · simp only [Option.bind_eq_bind, Option.bind_eq_some_iff] at hrow
      obtain ⟨r, -, hrow⟩ := hrow
      obtain rfl := Option.some.inj hrow
      rfl
    · cases hrow
  have hsub : ∀ l : List (Nat × Billing.BalanceReservation),
      ((l.filterMap (settlementRow s)).map (·.reservationId)).Sublist (l.map (·.1)) := by
    intro l
    induction l with
    | nil => exact List.Sublist.slnil
    | cons e l ih =>
        cases hrow : settlementRow s e with
        | none =>
            rw [List.filterMap_cons_none hrow, List.map_cons]
            exact ih.cons _
        | some row =>
            rw [List.filterMap_cons_some hrow, List.map_cons, List.map_cons,
              hkey e row hrow]
            exact ih.cons_cons _
  refine List.Nodup.sublist ?_ (Table.nodup_entries s.billing.reservations)
  exact (((List.take_sublist limit _).map _).trans (hsub _))

/-- Every row a pass selects is open. -/
theorem SiteInv.selected_open (h : SiteInv cfg initial x) {limit : Nat}
    {row : SettlementRow} (hrow : row ∈ settlementRows limit x.world.store) :
    ∃ b r, RowOpen x.world.store row b r := by
  obtain ⟨b, r, hb, hr, hst, -, hp, -, htenant, husage⟩ := rowInv_of_selected hrow
  refine ⟨b, r, hb, hp, htenant, hr, hst, fun hsucc hnone => ?_⟩
  obtain ⟨k, u, hu, hut, hus⟩ := h.books.metered _ r hr (hst.trans hsucc)
  rw [husage, Option.map_eq_none_iff] at hnone
  have := Table.find_none hnone hu
  simp [hut, hus] at this

/-- A pass selects something as long as a settled request's hold is
pending. -/
theorem SiteInv.selected_nonempty (h : SiteInv cfg initial x)
    (hr : x.world.store.requests.get id = some r) (hst : settledStatus r.status = true)
    (hres : r.billingReservationId = some i)
    (hb : x.world.store.billing.reservations.get i = some b) (hp : b.status = .pending) :
    ∃ row, row ∈ settlementRows 50 x.world.store := by
  obtain ⟨htype, y, hy, htenant, hyres⟩ := h.books.requested i b hb
  obtain rfl := h.books.request_eq hr hres hy hyres
  obtain rfl := Option.some.inj (hr.symm.trans hy)
  obtain ⟨row, hrow⟩ : ∃ row, settlementRow x.world.store (i, b) = some row := by
    unfold settlementRow
    rw [if_pos ⟨htype, hp⟩]
    simp [hr, htenant, hst, Option.filter]
  have hmem : row ∈ x.world.store.billing.reservations.entries.filterMap
      (settlementRow x.world.store) :=
    List.mem_filterMap.mpr ⟨(i, b), Table.mem_entries.mpr hb, hrow⟩
  obtain ⟨e, es, hes⟩ := List.exists_cons_of_ne_nil (List.ne_nil_of_mem hmem)
  refine ⟨e, ?_⟩
  unfold settlementRows
  rw [hes]
  exact List.mem_cons_self

/-- Passes come to every hold of a request that is over. -/
theorem SiteInv.settles {n : Nat} (h : SiteInv cfg initial x)
    (hdue : Due T x.world.store) (hr : x.world.store.requests.get id = some r)
    (hst : settledStatus r.status = true) (hres : r.billingReservationId = some i)
    (hn : (pendingHolds x.world.store).card ≤ n) :
    ∃ acts, After T acts ∧ ∃ b,
      (run (siteStep cfg) x acts).world.store.billing.reservations.get i = some b
        ∧ b.status ≠ .pending := by
  induction n generalizing x with
  | zero =>
      obtain ⟨k, b, hk, hb, -⟩ := h.books.holds id r hr
      obtain rfl : i = k := Option.some.inj (hres.symm.trans hk)
      refine ⟨[], after_nil T, b, hb, fun hp => ?_⟩
      have := Finset.card_pos.mpr ⟨i, mem_pendingHolds.mpr ⟨b, hb, hp⟩⟩
      omega
  | succ n ih =>
      obtain ⟨k, b, hk, hb, -⟩ := h.books.holds id r hr
      obtain rfl : i = k := Option.some.inj (hres.symm.trans hk)
      by_cases hp : b.status = .pending
      · obtain ⟨row, hrow⟩ := h.selected_nonempty hr hst hres hb hp
        have hsurvey := h.step (.survey T 50)
        have hpass : (siteStep cfg x (.survey T 50)).passes.get x.passes.nextId
            = some ⟨settlementRows 50 x.world.store, T, .next⟩ := by
          show (x.passes.insert _).get x.passes.nextId = _
          rw [Table.get_insert_self]
        obtain ⟨acts, hacts, hreq, hset, hother⟩ := hsurvey.drains hdue hpass
          (fun row hrow => h.selected_open hrow) (nodup_settlementRows 50 x.world.store)
        have hshrink : ∀ j c, (run (siteStep cfg) (siteStep cfg x (.survey T 50))
            acts).world.store.billing.reservations.get j = some c → c.status = .pending →
            j ∉ (settlementRows 50 x.world.store).map (·.reservationId)
              ∧ x.world.store.billing.reservations.get j = some c := by
          intro j c hc hpc
          have hj : j ∉ (settlementRows 50 x.world.store).map (·.reservationId) := by
            intro hj
            obtain ⟨row, hrow, rfl⟩ := List.mem_map.mp hj
            exact hset row hrow c hc hpc
          rw [hother j hj] at hc
          exact ⟨hj, hc⟩
        have hless : (pendingHolds (run (siteStep cfg) (siteStep cfg x (.survey T 50))
            acts).world.store).card < (pendingHolds x.world.store).card := by
          refine Finset.card_lt_card ⟨fun j hj => ?_, fun hsub => ?_⟩
          · obtain ⟨c, hc, hpc⟩ := mem_pendingHolds.mp hj
            exact mem_pendingHolds.mpr ⟨c, (hshrink j c hc hpc).2, hpc⟩
          · obtain ⟨c, y, ho⟩ := h.selected_open hrow
            obtain ⟨c', hc', hpc'⟩ := mem_pendingHolds.mp
              (hsub (mem_pendingHolds.mpr ⟨c, ho.reservation, ho.pending⟩))
            exact (hshrink _ c' hc' hpc').1 (List.mem_map_of_mem hrow)
        obtain ⟨more, hmore, hdone⟩ := ih (run_invariant (fun x a h => h.step a) hsurvey acts)
          (fun j c hc hpc => hdue j c (hshrink j c hc hpc).2 hpc)
          (by rw [hreq]; exact hr) (by omega)
        refine ⟨.survey T 50 :: (acts ++ more), ?_, ?_⟩
        · have hafter : After T [.survey T 50] :=
            after_singleton fun m hm => (Option.some.inj hm).le
          exact hafter.append (hacts.append hmore)
        · rw [run_cons, run_append]
          exact hdone
      · exact ⟨[], after_nil T, b, hb, hp⟩

-- ============================================================= the claim

theorem After.mono {t t' : Nat} {acts : List SiteAct} (h : After t acts) (ht : t' ≤ t) :
    After t' acts :=
  fun a ha n hn => ht.trans (h a ha n hn)

/-- Some time is later than every hold and every given time. -/
theorem exists_due (s : Store) (t : Nat) : ∃ T, t ≤ T ∧ Due T s := by
  obtain ⟨n, hn⟩ : ∃ n, ∀ b ∈ s.billing.reservations.rows, b.expiresAt ≤ n := by
    induction s.billing.reservations.rows with
    | nil => exact ⟨0, fun b hb => by cases hb⟩
    | cons b bs ih =>
        obtain ⟨n, hn⟩ := ih
        refine ⟨max n b.expiresAt, fun c hc => ?_⟩
        rcases List.mem_cons.mp hc with rfl | hc
        · exact le_max_right _ _
        · exact (hn c hc).trans (le_max_left _ _)
  exact ⟨max t n, le_max_left _ _, fun i b hb _ =>
    (hn b (Table.mem_rows_of_get hb)).trans (le_max_right _ _)⟩

/-- A request that is not unknown can have its hold settled, whatever time
it is. -/
theorem SiteInv.settleable (h : SiteInv cfg initial x)
    (hr : x.world.store.requests.get id = some r) (hst : r.status ≠ .submittedUnknown)
    (hres : r.billingReservationId = some i) (t : Nat) :
    ∃ acts, After t acts ∧ ∃ b,
      (run (siteStep cfg) x acts).world.store.billing.reservations.get i = some b
        ∧ b.status ≠ .pending := by
  obtain ⟨T, hT, hdue⟩ := exists_due x.world.store (max t (r.leaseExpiresAt.getD 0))
  have hlease : r.leaseExpiresAt.all (· ≤ T) = true := by
    cases hl : r.leaseExpiresAt with
    | none => rfl
    | some n =>
        have hle : n ≤ T := by
          refine le_trans ?_ hT
          simp [hl]
        simp [hle]
  obtain ⟨acts, hacts, hbilling, r', hr', hst'⟩ := h.ends hr hst hlease
  have hnext : SiteInv cfg initial (run (siteStep cfg) x acts) :=
    run_invariant (fun x a h => h.step a) h acts
  have hres' : r'.billingReservationId = some i := by
    obtain ⟨k, b, hk, hb, -, hid, -⟩ := h.books.holds id r hr
    obtain rfl : i = k := Option.some.inj (hres.symm.trans hk)
    rw [← hbilling] at hb
    obtain ⟨-, y, hy, -, hyres⟩ := hnext.books.requested i b hb
    rw [hid] at hy
    obtain rfl := Option.some.inj (hr'.symm.trans hy)
    exact hyres
  obtain ⟨more, hmore, hdone⟩ := hnext.settles (T := T)
    (fun j c hc hpc => hdue j c (by rw [← hbilling]; exact hc) hpc) hr' hst' hres' le_rfl
  refine ⟨acts ++ more, (hacts.append hmore).mono ((le_max_left _ _).trans hT), ?_⟩
  rw [run_append]
  exact hdone

/-- In every reachable site and at every time, the pending hold of a request
can still be settled exactly when the request is not `submitted_unknown`. -/
theorem hold_settleable_iff (h : SiteOpening x) (acts : List SiteAct) (t : Nat)
    (hr : (run (siteStep cfg) x acts).world.store.requests.get id = some r)
    (hres : r.billingReservationId = some i)
    (hb : (run (siteStep cfg) x acts).world.store.billing.reservations.get i = some b)
    (hp : b.status = .pending) :
    (∃ more, After t more ∧ ∃ b',
        (run (siteStep cfg) x (acts ++ more)).world.store.billing.reservations.get i
          = some b' ∧ (b'.status = .committed ∨ b'.status = .released))
      ↔ r.status ≠ .submittedUnknown := by
  have hinv : SiteInv cfg x.world.store.billing (run (siteStep cfg) x acts) :=
    siteInv_run cfg h acts
  constructor
  · rintro ⟨more, -, b', hb', hsettled⟩ hst
    rw [run_append, hinv.stuck hr hst hres hb] at hb'
    obtain rfl := Option.some.inj hb'
    rw [hp] at hsettled
    rcases hsettled with hs | hs
    · cases hs
    · cases hs
  · intro hst
    obtain ⟨more, hmore, b', hb', hopen⟩ := hinv.settleable hr hst hres t
    refine ⟨more, hmore, b', ?_, ?_⟩
    · rw [run_append]
      exact hb'
    · have hlaw := (run_invariant (fun x a h => h.step a) hinv more).money
      rcases hlaw.settled i b' hb' with hpend | hrel | ⟨hcom, -⟩
      · exact absurd hpend hopen
      · exact Or.inr hrel
      · exact Or.inl hcom

/-- A worker claims it and dies; the lease runs out and the sweep comes. -/
def sampleCrash : List SiteAct :=
  sampleAccepted
    ++ [.party (.claim 1 sampleCatalog (fun _ => false) "worker" 60 none none) rfl,
        sweepAct 100000000]

/-- The two rows an account of a hold is about. -/
def Site.holdOf (x : Site) (id i : Nat) :
    Option (RequestStatus × Option Nat × Billing.ReservationStatus) := do
  let r ← x.world.store.requests.get id
  let b ← x.world.store.billing.reservations.get i
  return (r.status, r.billingReservationId, b.status)

theorem holdOf_eq_some {st : RequestStatus} {res : Option Nat}
    {bs : Billing.ReservationStatus} (h : x.holdOf id i = some (st, res, bs)) :
    ∃ r b, x.world.store.requests.get id = some r
      ∧ x.world.store.billing.reservations.get i = some b
      ∧ r.status = st ∧ r.billingReservationId = res ∧ b.status = bs := by
  simp only [Site.holdOf, Option.bind_eq_bind, Option.bind_eq_some_iff] at h
  obtain ⟨r, hr, b, hb, h⟩ := h
  cases h
  exact ⟨r, b, hr, hb, rfl, rfl, rfl⟩

theorem hold_settleable_sample :
    ∃ more b, After 1000 more
      ∧ (run (siteStep sampleConfig) sampleSite
          (sampleAccepted ++ more)).world.store.billing.reservations.get 0 = some b
      ∧ (b.status = .committed ∨ b.status = .released) := by
  have hrows : (run (siteStep sampleConfig) sampleSite sampleAccepted).holdOf 0 0
      = some (.queued, some 0, .pending) := by decide +kernel
  obtain ⟨r, b, hr, hb, hst, hres, hp⟩ := holdOf_eq_some hrows
  obtain ⟨more, hmore, b', hb', hs⟩ :=
    (hold_settleable_iff sampleSite_opening sampleAccepted 1000 hr hres hb hp).mpr
      (by rw [hst]; simp)
  exact ⟨more, b', hmore, hb', hs⟩

/-- The hold of a request whose worker died after its submission is
pending, and stays so. -/
theorem hold_unsettleable_sample :
    ∃ r b, (run (siteStep sampleConfig) sampleSite sampleCrash).world.store.requests.get 0
        = some r
      ∧ r.billingReservationId = some 0
      ∧ (run (siteStep sampleConfig) sampleSite
          sampleCrash).world.store.billing.reservations.get 0 = some b
      ∧ b.status = .pending
      ∧ ¬ ∃ more b', (run (siteStep sampleConfig) sampleSite
          (sampleCrash ++ more)).world.store.billing.reservations.get 0 = some b'
            ∧ (b'.status = .committed ∨ b'.status = .released) := by
  have hrows : (run (siteStep sampleConfig) sampleSite sampleCrash).holdOf 0 0
      = some (.submittedUnknown, some 0, .pending) := by decide +kernel
  obtain ⟨r, b, hr, hb, hst, hres, hp⟩ := holdOf_eq_some hrows
  have hinv := siteInv_run sampleConfig sampleSite_opening sampleCrash
  refine ⟨r, b, hr, hres, hb, hp, ?_⟩
  rintro ⟨more, b', hb', hsettled⟩
  rw [run_append, hinv.stuck hr hst hres hb] at hb'
  obtain rfl := Option.some.inj hb'
  simp [hp] at hsettled

end Mosaic.Chat
