/-
The invariant of the site: who may settle which reservation.

# Moves of the store

Every step of the site moves the store in one of two ways (`StoreMove`):
a call that settles nothing, or one settlement. The invariants of the
store follow from that alone.

# Who settles

A worker settles only after it ended its request (`ProcessInv`), and a
pass only rows it selected after their request was over (`RowInv`); a
request that is over does not change any more, so both facts last.
-/
import Mosaic.Chat.Proofs.Accounts
import Mosaic.Chat.Reconcile

namespace Mosaic.Chat

open Lib Providers

variable {cfg : Config} {env : Env} {who : Caller} {s s' : Store} {p p' : Process}
  {w : World} {x : Site} {id : Nat} {r r' : InferenceRequest}
  {book : Catalog.PriceBook} {initial : Billing.Db}

-- =========================================================== store moves

inductive StoreMove (book : Catalog.PriceBook) (s s' : Store) : Prop
  | booked (who : Caller) (hsettles : who.settles = false) (heff : Effects who s s')
      (hb : Booked book s s')
  | settled (call : Billing.Call) (hcall : Settlement book s call)
      (hs : s' = { s with billing := Billing.step s.billing call })

theorem StoreMove.refl (s : Store) : StoreMove book s s :=
  StoreMove.booked ⟨none, [], false, false⟩ rfl (Effects.one (Effect.refl s))
    (Booked.refl s)

/-- What an act of a party other than a reconciler does to the store. -/
inductive PartyMove (cfg : Config) (w : World) (s' : Store) : Prop
  | booked (who : Caller) (hsettles : who.settles = false)
      (heff : Effects who w.store s') (hb : Booked cfg.book w.store s')
  | settled (pid : Nat) (p : Process) (hp : w.processes.get pid = some p)
      (call : Billing.Call) (hcall : Settling cfg.book p w.store call)
      (hs : s' = { w.store with billing := Billing.step w.store.billing call })

theorem PartyMove.storeMove (h : PartyMove cfg w s') : StoreMove cfg.book w.store s' := by
  cases h with
  | booked who hsettles heff hb => exact StoreMove.booked who hsettles heff hb
  | settled pid p hp call hcall hs =>
      refine StoreMove.settled call ?_ hs
      cases hcall with
      | release now reservationId hpc hres => exact Settlement.release _ _ _
      | capture now reservationId hpc hres => exact Settlement.capture _ _ _ _

theorem partyMove_op (cfg : Config) (hinv : ChatInv w.store) (hbill : BillInv w.store)
    (op : Op) (hop : op.caller.settles = false) : PartyMove cfg w (step cfg.book w.store op) := by
  have hop' : op.isBilling = false := by
    cases op <;> simp_all [Op.caller, Op.isBilling]
  exact PartyMove.booked op.caller hop (step_effects cfg.book hinv op)
    (step_booked hinv hbill hop')

theorem PartyMove.refl (w : World) : PartyMove cfg w w.store :=
  PartyMove.booked ⟨none, [], false, false⟩ rfl (Effects.one (Effect.refl _))
    (Booked.refl _)

theorem worldStep_partyMove (cfg : Config) (hinv : ChatInv w.store)
    (hbill : BillInv w.store) {act : Act} (hact : act.isParty = true) :
    PartyMove cfg w (worldStep cfg w act).store := by
  cases act with
  | api op hop => exact partyMove_op cfg hinv hbill _ (Op.caller_of_isApi hop).2.2.1
  | claim now catalog locked workerId leaseSeconds tenantId requestId =>
      have hop := partyMove_op cfg hinv hbill
        (.claimQueued now catalog locked workerId leaseSeconds tenantId requestId) rfl
      unfold worldStep
      simp only
      unfold step at hop
      split
      · next e store hclaim =>
          simp only [Op.perform, hclaim] at hop
          exact hop
      · next store hclaim =>
          simp only [Op.perform, hclaim] at hop
          exact hop
      · exact PartyMove.refl w
  | work pid env =>
      unfold worldStep
      simp only
      split
      · exact PartyMove.refl w
      · next p hp =>
          obtain ⟨p', s', hstep⟩ : ∃ p' s', workerStep cfg env p w.store = (p', s') :=
            ⟨_, _, rfl⟩
          rw [hstep]
          show PartyMove cfg w s'
          cases workerStep_wrote hstep with
          | nothing h =>
              subst h
              exact PartyMove.refl w
          | call op howner hkeeps hends h =>
              subst h
              exact partyMove_op cfg hinv hbill _ hkeeps.2
          | settle call hcall h => exact PartyMove.settled pid p hp call hcall h
          | requeue now hpc hparked h =>
              subst h
              exact partyMove_op cfg hinv hbill _ rfl
  | settle now tenantId reservationId capture => cases hact

/-- A request keeps its identity. -/
theorem StoreMove.same_request (h : StoreMove book s s')
    (hr : s.requests.get id = some r) :
    ∃ r', s'.requests.get id = some r' ∧ SameRequest r r' := by
  cases h with
  | booked who hsettles heff hb => exact heff.same_request hr
  | settled call hcall hs =>
      subst hs
      exact ⟨r, hr, ⟨rfl, rfl, rfl, rfl, rfl, rfl, rfl⟩⟩

theorem StoreMove.final_kept (h : StoreMove book s s') (hr : s.requests.get id = some r)
    (hfinal : r.status.final = true) : s'.requests.get id = some r := by
  cases h with
  | booked who hsettles heff hb => exact heff.final_kept hr hfinal
  | settled call hcall hs =>
      subst hs
      exact hr

/-- What a settlement can do to a reservation. -/
theorem Settlement.row {call : Billing.Call} (hcall : Settlement book s call) {i : Nat}
    {b : Billing.BalanceReservation} (hb : s.billing.reservations.get i = some b) :
    ∃ b', (Billing.step s.billing call).reservations.get i = some b'
      ∧ Billing.SameHold b b' := by
  unfold Billing.step
  cases hcall with
  | release now tenantId j =>
      simp only [Billing.Call.perform]
      split
      · next db hdb =>
          simp only [bind_eq_ok, pure_eq_ok] at hdb
          obtain ⟨y, hy, rfl⟩ := hdb
          exact (Billing.release_kept hy).new i b hb
      · exact ⟨b, hb, Billing.SameHold.refl b⟩
  | capture now tenantId j usage =>
      simp only [Billing.Call.perform]
      split
      · next db hdb =>
          simp only [bind_eq_ok, pure_eq_ok] at hdb
          obtain ⟨y, hy, rfl⟩ := hdb
          obtain hsame | ⟨c, amount, -, -, -, hrep⟩ := Billing.capture_row hy
          · exact ⟨b, by rw [hsame, hb], Billing.SameHold.refl b⟩
          · by_cases hi : i = j
            · subst hi
              obtain rfl := Option.some.inj (hb.symm.trans hrep.old)
              exact ⟨_, hrep.new, ⟨⟨rfl, rfl, rfl⟩, rfl, rfl⟩⟩
            · exact ⟨b, by rw [hrep.other hi, hb], Billing.SameHold.refl b⟩
      · exact ⟨b, hb, Billing.SameHold.refl b⟩

/-- A reservation keeps its source. -/
theorem StoreMove.same_hold (h : StoreMove book s s') (hbill : BillInv s) {i : Nat}
    {b : Billing.BalanceReservation} (hb : s.billing.reservations.get i = some b) :
    ∃ b', s'.billing.reservations.get i = some b' ∧ Billing.SameHold b b' := by
  cases h with
  | booked who hsettles heff hbk =>
      refine ⟨b, ?_, Billing.SameHold.refl b⟩
      cases hbk with
      | plain hsize hbilling hcompletes => rw [hbilling, hb]
      | offered r price ho =>
          obtain ⟨-, -, b', hins, -⟩ := ho.inserted hbill
          rw [hins]
          exact Table.get_insert_of_some hb _
      | completed j r r' price u hd => rw [hd.billing, hb]
  | settled call hcall hs =>
      subst hs
      exact hcall.row hb

theorem StoreMove.billInv (h : StoreMove book s s') (hbill : BillInv s) : BillInv s' := by
  cases h with
  | booked who hsettles heff hb => exact hbill.effects heff hsettles
  | settled call hcall hs =>
      subst hs
      exact hbill.settled hcall.settled

theorem StoreMove.ownerInv (h : StoreMove book s s') (howner : OwnerInv s) :
    OwnerInv s' := by
  cases h with
  | booked who hsettles heff hb => exact howner.booked heff hb
  | settled call hcall hs =>
      subst hs
      exact ⟨howner.owner, howner.uuid, howner.unique⟩

theorem StoreMove.books (h : StoreMove book s s') (hbill : BillInv s)
    (hbooks : ChatBooks book s) : ChatBooks book s' := by
  cases h with
  | booked who hsettles heff hb => exact hbooks.booked hbill heff hb
  | settled call hcall hs =>
      subst hs
      exact hbooks.settled hcall

theorem StoreMove.money (h : StoreMove book s s')
    (hmoney : Billing.BillingInv initial s.billing) :
    Billing.BillingInv initial s'.billing := by
  cases h with
  | booked who hsettles heff hb =>
      cases hb with
      | plain hsize hbilling hcompletes =>
          rw [hbilling]
          exact hmoney
      | offered r price ho =>
          obtain ⟨now, expiresAt, res, hreserve, -⟩ := ho.hold
          exact hmoney.writes (Billing.reserveInTransaction_writes hreserve)
      | completed j r r' price u hd =>
          rw [hd.billing]
          exact hmoney.writes (Billing.Writes.usage _)
  | settled call hcall hs =>
      subst hs
      exact hmoney.writes (Billing.step_writes _ call)

-- ============================================================ processes

/-- The places where a worker is about to settle. -/
def Pc.settling : Pc → Bool
  | .capture => true
  | .releasing _ => true
  | _ => false

structure ProcessInv (s : Store) (p : Process) : Prop where
  placed : ∃ r, s.requests.get p.current.requestDbId = some r
    ∧ r.billingReservationId = p.current.reservationId
  ready : p.pc.settling = true → ∃ r, s.requests.get p.current.requestDbId = some r
    ∧ settledStatus r.status = true

/-- A request in a status the reconciler selects is over. -/
theorem ChatInv.final_of_settled (h : ChatInv s) (hr : s.requests.get id = some r)
    (hst : settledStatus r.status = true) : r.status.final = true := by
  refine (h.pointer.status id r hr).resolve_left fun hact => ?_
  cases hs : r.status <;> simp_all [settledStatus, RequestStatus.active]

theorem ProcessInv.carry (h : ProcessInv s p) (hinv : ChatInv s)
    (hmove : StoreMove book s s') : ProcessInv s' p where
  placed := by
    obtain ⟨r, hr, hres⟩ := h.placed
    obtain ⟨r', hr', hsame⟩ := hmove.same_request hr
    exact ⟨r', hr', hsame.reservation.trans hres⟩
  ready := by
    intro hpc
    obtain ⟨r, hr, hst⟩ := h.ready hpc
    exact ⟨r, hmove.final_kept hr (hinv.final_of_settled hr hst), hst⟩

theorem terminalWithoutUsage_true {now lockedNow : Nat} {e : Execution} {seq : Int}
    {t : Terminal} (h : terminalWithoutUsage now lockedNow e seq t s = .ok (true, s')) :
    ∃ r', s'.requests.get e.requestDbId = some r' ∧ r'.status = t.requestStatus := by
  unfold terminalWithoutUsage at h
  split at h
  · cases h
  · next r hfilter =>
      have hw := writable_of_filter hfilter
      split at h
      · simp only [bind_eq_ok, pure_eq_ok, Prod.mk.injEq] at h
        obtain ⟨-, -, -, rfl⟩ := h
        exact ⟨_, (Table.replaced_modify hw.get _).new, rfl⟩
      · cases h

theorem markCompleted_true {now lockedNow : Nat} {e : Execution} {seq : Int}
    {content : String} {provider : Option String} {usage : TokenUsage}
    (h : markCompleted book now lockedNow e seq content provider usage s
      = .ok (true, s')) :
    ∃ r', s'.requests.get e.requestDbId = some r' ∧ r'.status = .succeeded := by
  unfold markCompleted at h
  split at h
  · cases h
  · next r hfilter =>
      have hw := writable_of_filter hfilter
      split at h
      · simp only [bind_eq_ok, pure_eq_ok, Prod.mk.injEq] at h
        obtain ⟨-, -, -, -, -, -, -, -, -, rfl⟩ := h
        exact ⟨_, (Table.replaced_modify hw.get _).new, rfl⟩
      · cases h

theorem raise_not_settling (p : Process) (region : Region) :
    (p.raise region).pc.settling = false := by
  cases region with
  | outside => rfl
  | admitted => rfl
  | submitted => rfl

theorem leaseCheck_not_settling {region : Region} {content : String} {invalid : Pc}
    {go : Process → Process}
    (h : leaseCheck cfg env p s region content invalid go = (p', s'))
    (hinvalid : invalid.settling = false)
    (hgo : ∀ q, (go q).pc.settling = false) : p'.pc.settling = false := by
  obtain ⟨rfl, -⟩ | ⟨-, -, rfl⟩ | ⟨-, -, -, rfl⟩ | ⟨-, -, -, rfl⟩ := leaseCheck_cases h
  · exact raise_not_settling _ _
  · exact hinvalid
  · rfl
  · exact hgo _

/-- A worker comes to settle only by ending its request. -/
theorem workerStep_settling (h : workerStep cfg env p s = (p', s'))
    (hpc' : p'.pc.settling = true) :
    ∃ r', s'.requests.get p.current.requestDbId = some r'
      ∧ settledStatus r'.status = true := by
  have hno : ∀ {P : Prop}, p'.pc.settling = false → P := by
    intro P hf
    rw [hpc'] at hf
    cases hf
  cases hpc : p.pc with
  | begin =>
      simp only [workerStep, hpc] at h
      split at h
      · obtain ⟨rfl, rfl⟩ := h
        exact hno rfl
      · split at h
        · obtain ⟨rfl, rfl⟩ := h
          exact hno rfl
        · obtain ⟨rfl, rfl⟩ := h
          exact hno rfl
  | firstCheck =>
      simp only [workerStep, hpc] at h
      exact hno (leaseCheck_not_settling h rfl fun _ => rfl)
  | prepare =>
      simp only [workerStep, hpc] at h
      split at h
      · obtain ⟨rfl, rfl⟩ := h
        exact hno rfl
      · split at h
        all_goals
          obtain ⟨rfl, rfl⟩ := h
          exact hno rfl
  | requeue =>
      simp only [workerStep, hpc] at h
      split at h
      · obtain ⟨rfl, rfl⟩ := h
        exact hno rfl
      · obtain ⟨rfl, rfl⟩ := h
        refine hno ?_
        dsimp only
        split
        · rfl
        · rfl
  | secondCheck =>
      simp only [workerStep, hpc] at h
      exact hno (leaseCheck_not_settling h rfl fun _ => rfl)
  | openStream =>
      simp only [workerStep, hpc] at h
      obtain ⟨rfl, rfl⟩ := h
      exact hno rfl
  | next =>
      simp only [workerStep, hpc] at h
      split at h
      · obtain ⟨rfl, rfl⟩ := h
        exact hno (raise_not_settling _ _)
      · split at h
        · obtain ⟨rfl, rfl⟩ := h
          exact hno rfl
        · obtain ⟨rfl, rfl⟩ := h
          refine hno ?_
          unfold Process.raiseProvider
          dsimp only
          split
          · rfl
          · rfl
        · obtain ⟨rfl, rfl⟩ := h
          exact hno (raise_not_settling _ _)
        · obtain ⟨rfl, rfl⟩ := h
          exact hno rfl
  | checkChunk chunk =>
      simp only [workerStep, hpc] at h
      refine hno (leaseCheck_not_settling h rfl fun q => ?_)
      split
      · exact raise_not_settling _ _
      · dsimp only
        split
        · rfl
        · rfl
  | append chunk =>
      simp only [workerStep, hpc] at h
      split at h
      · obtain ⟨rfl, rfl⟩ := h
        exact hno (raise_not_settling _ _)
      · obtain ⟨rfl, rfl⟩ := h
        exact hno rfl
      · obtain ⟨rfl, rfl⟩ := h
        exact hno rfl
  | stopping point =>
      simp only [workerStep, hpc] at h
      split at h
      · obtain ⟨rfl, rfl⟩ := h
        exact hno (raise_not_settling _ _)
      · obtain ⟨rfl, rfl⟩ := h
        exact hno rfl
      · next hattempt =>
          obtain ⟨rfl, rfl⟩ := h
          obtain ⟨habs, -⟩ | ⟨b, hb, hc⟩ := attempt_cases hattempt
          · cases habs
          · obtain rfl : true = b := by simpa using hc
            obtain ⟨r', hr', hst⟩ := terminalWithoutUsage_true hb
            exact ⟨r', hr', by rw [hst]; rfl⟩
  | releasing region =>
      simp only [workerStep, hpc] at h
      split at h
      · obtain ⟨rfl, rfl⟩ := h
        exact hno rfl
      · split at h
        · obtain ⟨rfl, rfl⟩ := h
          exact hno (raise_not_settling _ _)
        · obtain ⟨rfl, rfl⟩ := h
          exact hno rfl
  | finalCheck finished =>
      simp only [workerStep, hpc] at h
      exact hno (leaseCheck_not_settling h rfl fun _ => rfl)
  | complete =>
      simp only [workerStep, hpc] at h
      split at h
      · obtain ⟨rfl, rfl⟩ := h
        exact hno (raise_not_settling _ _)
      · obtain ⟨rfl, rfl⟩ := h
        exact hno rfl
      · next hattempt =>
          obtain ⟨rfl, rfl⟩ := h
          obtain ⟨habs, -⟩ | ⟨b, hb, hc⟩ := attempt_cases hattempt
          · cases habs
          · obtain rfl : true = b := by simpa using hc
            obtain ⟨r', hr', hst⟩ := markCompleted_true hb
            exact ⟨r', hr', by rw [hst]; rfl⟩
  | capture =>
      simp only [workerStep, hpc] at h
      split at h
      · obtain ⟨rfl, rfl⟩ := h
        exact hno rfl
      · obtain ⟨rfl, rfl⟩ := h
        exact hno rfl
  | failing code details provider reserved =>
      simp only [workerStep, hpc] at h
      split at h
      · next hattempt =>
          obtain ⟨rfl, rfl⟩ := h
          obtain ⟨habs, -⟩ | ⟨b, hb, hc⟩ := attempt_cases hattempt
          · cases habs
          · obtain rfl : true = b := by simpa using hc
            obtain ⟨r', hr', hst⟩ := terminalWithoutUsage_true hb
            exact ⟨r', hr', by rw [hst]; rfl⟩
      · obtain ⟨rfl, rfl⟩ := h
        exact hno rfl
  | markingUnknown code provider =>
      simp only [workerStep, hpc] at h
      obtain ⟨rfl, rfl⟩ := h
      exact hno rfl
  | requeued =>
      simp only [workerStep, hpc] at h
      obtain ⟨rfl, rfl⟩ := h
      exact hno (by rw [hpc]; rfl)
  | ended =>
      simp only [workerStep, hpc] at h
      obtain ⟨rfl, rfl⟩ := h
      exact hno (by rw [hpc]; rfl)

theorem ProcessInv.own (h : ProcessInv s p) (hstep : workerStep cfg env p s = (p', s'))
    (hmove : StoreMove book s s') : ProcessInv s' p' where
  placed := by
    obtain ⟨r, hr, hres⟩ := h.placed
    obtain ⟨r', hr', hsame⟩ := hmove.same_request hr
    rw [(workerStep_kept hstep).current]
    exact ⟨r', hr', hsame.reservation.trans hres⟩
  ready := by
    intro hpc
    obtain ⟨r', hr', hst⟩ := workerStep_settling hstep hpc
    rw [(workerStep_kept hstep).current]
    exact ⟨r', hr', hst⟩

-- =============================================================== passes

/-- A row the pass still has to settle. -/
def Reconciler.covers (p : Reconciler) (row : SettlementRow) : Prop :=
  row ∈ p.rows ∨ p.pc = .releaseExpired row

/-- A row stands for the reservation of a request that is over. -/
def RowInv (s : Store) (row : SettlementRow) : Prop :=
  ∃ b r, s.billing.reservations.get row.reservationId = some b
    ∧ s.requests.get b.sourceId = some r ∧ r.status = row.status
    ∧ settledStatus r.status = true

theorem RowInv.carry {row : SettlementRow} (h : RowInv s row) (hinv : ChatInv s)
    (hbill : BillInv s) (hmove : StoreMove book s s') : RowInv s' row := by
  obtain ⟨b, r, hb, hr, hrow, hst⟩ := h
  obtain ⟨b', hb', hsame⟩ := hmove.same_hold hbill hb
  refine ⟨b', r, hb', ?_, hrow, hst⟩
  rw [hsame.source.2.2]
  exact hmove.final_kept hr (hinv.final_of_settled hr hst)

/-- The selected rows stand for what they were selected for. -/
theorem rowInv_of_selected {limit : Nat} {row : SettlementRow}
    (h : row ∈ settlementRows limit s) :
    ∃ b r, s.billing.reservations.get row.reservationId = some b
      ∧ s.requests.get b.sourceId = some r ∧ r.status = row.status
      ∧ settledStatus r.status = true ∧ b.status = .pending
      ∧ b.sourceType = "chat_inference" ∧ row.tenantId = b.tenantId
      ∧ row.usageId = (s.billing.usageRecords.find fun u => u.tenantId == r.tenantId
          && u.source == .inferenceRequest b.sourceId).map (·.1) := by
  obtain ⟨⟨i, b⟩, he, hrow⟩ := List.mem_filterMap.mp (List.mem_of_mem_take h)
  unfold settlementRow at hrow
  split at hrow
  · next hcond =>
      simp only [Option.bind_eq_bind, Option.bind_eq_some_iff,
        Option.filter_eq_some_iff] at hrow
      obtain ⟨r, ⟨hr, hp⟩, hrow⟩ := hrow
      obtain rfl := Option.some.inj hrow
      simp only [Bool.and_eq_true, beq_iff_eq] at hp
      exact ⟨b, r, Table.mem_entries.mp he, hr, rfl, hp.2, hcond.2, hcond.1, rfl, rfl⟩
  · cases hrow

/-- The call that settles a row. -/
inductive RowCall (book : Catalog.PriceBook) (s : Store) (row : SettlementRow) :
    Billing.Call → Prop
  | release (now : Nat) :
      RowCall book s row (.release now .none row.tenantId row.reservationId)
  | capture (now : Nat) (hsucc : row.status = .succeeded) :
      RowCall book s row (.capture now .none (s.sources book)
        { tenantId := row.tenantId, reservationId := row.reservationId })

theorem RowCall.settlement {row : SettlementRow} {call : Billing.Call}
    (h : RowCall book s row call) : Settlement book s call := by
  cases h with
  | release now => exact Settlement.release _ _ _
  | capture now hsucc => exact Settlement.capture _ _ _ _

theorem releaseHold_step {now tenantId i : Nat} {u : Unit}
    (h : releaseHold now tenantId i s = .ok (u, s')) :
    s' = { s with billing := Billing.step s.billing (.release now .none tenantId i) } := by
  simp only [releaseHold, bind_eq_ok, mapError_eq_ok, pure_eq_ok] at h
  obtain ⟨y, hy, h⟩ := h
  obtain ⟨-, rfl⟩ := Prod.mk.inj h
  simp only [Billing.step, Billing.Call.perform, hy]
  rfl

theorem captureHold_step {now tenantId i : Nat} {usage : Option Billing.BillingUsage}
    {u : Unit} (h : captureHold book now tenantId i usage s = .ok (u, s')) :
    s' = { s with billing := Billing.step s.billing (.capture now .none (s.sources book)
      { tenantId, reservationId := i, usage }) } := by
  simp only [captureHold, bind_eq_ok, mapError_eq_ok, pure_eq_ok] at h
  obtain ⟨y, hy, h⟩ := h
  obtain ⟨-, rfl⟩ := Prod.mk.inj h
  simp only [Billing.step, Billing.Call.perform, hy]
  rfl

/-- What one step of a pass does. -/
inductive PassMove (book : Catalog.PriceBook) (s s' : Store) (q q' : Reconciler) : Prop
  | nothing (hs : s' = s)
  | settled (row : SettlementRow) (hrow : q.covers row) (call : Billing.Call)
      (hcall : RowCall book s row call)
      (hs : s' = { s with billing := Billing.step s.billing call })

theorem Reconciler.release_moved (book : Catalog.PriceBook) {q q₀ q' : Reconciler} {db : DbOutcome}
    {row : SettlementRow} (hrow : q₀.covers row) (h : q.release db row s = (q', s')) :
    PassMove book s s' q₀ q' ∧ q'.rows = q.rows
      ∧ (q'.pc = .next ∨ q'.pc = .ended) := by
  have hmove : ∀ {b : Option Unit} {s₁ : Store},
      attempt db s (releaseHold q.clock row.tenantId row.reservationId s) = (b, s₁) →
      PassMove book s s₁ q₀ q' := by
    intro b s₁ hb
    obtain ⟨-, rfl⟩ | ⟨y, hy, -⟩ := attempt_cases hb
    · exact PassMove.nothing rfl
    · exact PassMove.settled row hrow _ (RowCall.release _) (releaseHold_step hy)
  unfold Reconciler.release at h
  split at h
  · next s₁ hb =>
      obtain ⟨rfl, rfl⟩ := h
      exact ⟨hmove hb, rfl, Or.inr rfl⟩
  · next s₁ hb =>
      obtain ⟨rfl, rfl⟩ := h
      exact ⟨hmove hb, rfl, Or.inl rfl⟩

theorem Reconciler.capture_moved {q q₀ q' : Reconciler} {db : DbOutcome}
    {row : SettlementRow} (hrow : q₀.covers row) (hsucc : row.status = .succeeded)
    (h : q.capture book db row s = (q', s')) :
    PassMove book s s' q₀ q' ∧ q'.rows = q.rows
      ∧ (q'.pc = .next ∨ q'.pc = .ended ∨ q'.pc = .releaseExpired row) := by
  unfold Reconciler.capture at h
  split at h
  · split at h
    · obtain ⟨rfl, rfl⟩ := h
      exact ⟨PassMove.nothing rfl, rfl, Or.inr (Or.inr rfl)⟩
    · obtain ⟨rfl, rfl⟩ := h
      exact ⟨PassMove.nothing rfl, rfl, Or.inr (Or.inl rfl)⟩
  · next y hy =>
      have hmove : ∀ {b : Option Unit} {s₁ : Store},
          attempt db s (.ok y : Except ChatError (Unit × Store)) = (b, s₁) →
          PassMove book s s₁ q₀ q' := by
        intro b s₁ hb
        obtain ⟨-, rfl⟩ | ⟨z, hz, -⟩ := attempt_cases hb
        · exact PassMove.nothing rfl
        · obtain rfl := Except.ok.inj hz
          exact PassMove.settled row hrow _ (RowCall.capture _ hsucc) (captureHold_step hy)
      split at h
      · next s₁ hb =>
          obtain ⟨rfl, rfl⟩ := h
          exact ⟨hmove hb, rfl, Or.inr (Or.inl rfl)⟩
      · next s₁ hb =>
          obtain ⟨rfl, rfl⟩ := h
          exact ⟨hmove hb, rfl, Or.inl rfl⟩

/-- A pass settles rows it covers, and covers no new ones. -/
theorem reconcilerStep_moved {q q' : Reconciler} {elapsed : Nat} {db : DbOutcome}
    (h : reconcilerStep book elapsed db q s = (q', s')) :
    PassMove book s s' q q' ∧ ∀ row, q'.covers row → q.covers row := by
  unfold reconcilerStep at h
  simp only at h
  split at h
  · next hpc =>
      split at h
      · next hrows =>
          obtain ⟨rfl, rfl⟩ := h
          refine ⟨PassMove.nothing rfl, fun row hrow => ?_⟩
          rcases hrow with hrow | hrow
          · exact Or.inl hrow
          · cases hrow
      · next row rows hrows =>
          have hhead : q.covers row := by
            left
            rw [hrows]
            exact List.mem_cons_self
          have htail : ∀ {y}, y ∈ rows → q.covers y := by
            intro y hy
            left
            rw [hrows]
            exact List.mem_cons_of_mem _ hy
          split at h
          · next hsucc =>
              split at h
              · obtain ⟨rfl, rfl⟩ := h
                refine ⟨PassMove.nothing rfl, fun y hy => ?_⟩
                rcases hy with hy | hy
                · exact htail hy
                · rw [hpc] at hy
                  cases hy
              · obtain ⟨hmove, hrest, hnext⟩ := Reconciler.capture_moved hhead hsucc h
                refine ⟨hmove, fun y hy => ?_⟩
                rcases hy with hy | hy
                · rw [hrest] at hy
                  exact htail hy
                · rcases hnext with hn | hn | hn
                  · rw [hn] at hy
                    cases hy
                  · rw [hn] at hy
                    cases hy
                  · rw [hn] at hy
                    obtain rfl := ReconcilerPc.releaseExpired.inj hy
                    exact hhead
          · obtain ⟨hmove, hrest, hnext⟩ := Reconciler.release_moved book hhead h
            refine ⟨hmove, fun y hy => ?_⟩
            rcases hy with hy | hy
            · rw [hrest] at hy
              exact htail hy
            · rcases hnext with hn | hn
              · rw [hn] at hy
                cases hy
              · rw [hn] at hy
                cases hy
  · next row hpc =>
      obtain ⟨hmove, hrest, hnext⟩ := Reconciler.release_moved book
        (show q.covers row from Or.inr hpc) h
      refine ⟨hmove, fun y hy => ?_⟩
      rcases hy with hy | hy
      · rw [hrest] at hy
        exact Or.inl hy
      · rcases hnext with hn | hn
        · rw [hn] at hy
          cases hy
        · rw [hn] at hy
          cases hy
  · next hpc =>
      obtain ⟨rfl, rfl⟩ := h
      exact ⟨PassMove.nothing rfl, fun _ hy => hy⟩

-- ============================================================ invariant

structure SiteInv (cfg : Config) (initial : Billing.Db) (x : Site) : Prop where
  fleet : FleetInv x.world
  bill : BillInv x.world.store
  owner : OwnerInv x.world.store
  books : ChatBooks cfg.book x.world.store
  money : Billing.BillingInv initial x.world.store.billing
  processes : ∀ pid p, x.world.processes.get pid = some p →
    ProcessInv x.world.store p
  rows : ∀ pid q, x.passes.get pid = some q → ∀ row, q.covers row →
    RowInv x.world.store row

theorem SiteOpening.inv (h : SiteOpening x) :
    SiteInv cfg x.world.store.billing x := by
  have hrequests : ∀ id, x.world.store.requests.get id = none :=
    fun id => h.world.store.get_requests
  have hholds : ∀ i, x.world.store.billing.reservations.get i = none := by
    intro i
    rw [h.billing.reservations]
    exact Table.get_empty i
  have husages : ∀ k, x.world.store.billing.usageRecords.get k = none := by
    intro k
    rw [h.usage]
    exact Table.get_empty k
  refine
    { fleet := h.world.fleet, bill := (h.world.streamInv cfg).bill
      owner := ⟨by simp [hrequests], by simp [hrequests], by simp [hrequests]⟩
      books :=
        { accounts := ⟨by simp [hholds], by simp [hholds], by simp [husages],
            by simp [husages], by simp [hholds]⟩
          requested := by simp [hholds], holds := by simp [hrequests]
          metered := by simp [hrequests] }
      money := h.billing.inv, processes := ?_, rows := ?_ }
  · intro pid p hp
    simp [h.world.processes] at hp
  · intro pid q hq
    simp [h.passes] at hq

/-- A store move under the parties, which stay where they are. -/
theorem SiteInv.store (h : SiteInv cfg initial x) {s' : Store}
    (hmove : StoreMove cfg.book x.world.store s')
    (hfleet : FleetInv { x.world with store := s' }) :
    SiteInv cfg initial { x with world := { x.world with store := s' } } where
  fleet := hfleet
  bill := hmove.billInv h.bill
  owner := hmove.ownerInv h.owner
  books := hmove.books h.bill h.books
  money := hmove.money h.money
  processes := fun pid p hp => (h.processes pid p hp).carry h.fleet.chat hmove
  rows := fun pid q hq row hrow =>
    (h.rows pid q hq row hrow).carry h.fleet.chat h.bill hmove

theorem SiteInv.party (h : SiteInv cfg initial x) {act : Act}
    (hact : act.isParty = true) :
    SiteInv cfg initial { x with world := worldStep cfg x.world act } := by
  have hmove := (worldStep_partyMove cfg h.fleet.chat h.bill hact).storeMove
  have hfleet := h.fleet.acted (worldStep_acted cfg h.fleet.chat act)
  refine
    { fleet := hfleet, bill := hmove.billInv h.bill, owner := hmove.ownerInv h.owner
      books := hmove.books h.bill h.books, money := hmove.money h.money
      processes := ?_
      rows := fun pid q hq row hrow =>
        (h.rows pid q hq row hrow).carry h.fleet.chat h.bill hmove }
  intro pid p' hp'
  have hacted := worldStep_acted cfg h.fleet.chat act
  generalize worldStep cfg x.world act = w' at hmove hacted hp'
  cases hacted with
  | outside act who s' heff htoken hkeeps hends =>
      exact (h.processes pid p' hp').carry h.fleet.chat hmove
  | settled act now tenantId reservationId capture s' hs =>
      exact (h.processes pid p' hp').carry h.fleet.chat hmove
  | started act now e r r' s' hclaimed heff =>
      obtain ⟨-, rfl⟩ | hp := Table.get_insert_cases hp'
      · refine ⟨⟨r', hclaimed.requests.new, ?_⟩, fun hpc => by cases hpc⟩
        exact hclaimed.same.reservation.trans hclaimed.reservation.symm
      · exact (h.processes pid p' hp).carry h.fleet.chat hmove
  | worked qid env p q' s' hp hstep =>
      obtain ⟨rfl, y, hy, rfl⟩ | ⟨-, hp'⟩ := Table.get_modify_cases hp'
      · exact (h.processes _ p hp).own hstep hmove
      · exact (h.processes pid p' hp').carry h.fleet.chat hmove

theorem SiteInv.step (h : SiteInv cfg initial x) (act : SiteAct) :
    SiteInv cfg initial (siteStep cfg x act) := by
  cases act with
  | party act hact => exact h.party hact
  | survey now limit =>
      unfold siteStep
      simp only
      split
      · exact h
      · refine { h with rows := ?_ }
        intro pid q hq row hrow
        obtain ⟨-, rfl⟩ | hq := Table.get_insert_cases hq
        · rcases hrow with hrow | hrow
          · obtain ⟨b, r, hb, hr, hst, hover, -⟩ := rowInv_of_selected hrow
            exact ⟨b, r, hb, hr, hst, hover⟩
          · cases hrow
        · exact h.rows pid q hq row hrow
  | repair pass elapsed db =>
      unfold siteStep
      simp only
      split
      · exact h
      · next q hq =>
          obtain ⟨q', s', hstep⟩ : ∃ q' s',
              reconcilerStep cfg.book elapsed db q x.world.store = (q', s') := ⟨_, _, rfl⟩
          obtain ⟨hmove, hcovers⟩ := reconcilerStep_moved hstep
          rw [hstep]
          have hstore : SiteInv cfg initial
              { x with world := { x.world with store := s' } } := by
            cases hmove with
            | nothing hs =>
                subst hs
                exact h
            | settled row hrow call hcall hs =>
                refine h.store (StoreMove.settled call hcall.settlement hs) ?_
                have heff := step_effects cfg.book h.fleet.chat (.billing call)
                have hinv := h.fleet.chat.effects heff
                subst hs
                exact h.fleet.store heff hinv rfl
          refine { hstore with rows := ?_ }
          intro pid z hz row hrow
          obtain ⟨hpid, -, -, rfl⟩ | ⟨-, hz⟩ := Table.get_modify_cases hz
          · exact hstore.rows pass q hq row (hcovers row hrow)
          · exact hstore.rows pid z hz row hrow

/-- What an act of the site does to the chat rows. -/
theorem SiteInv.storeMove (h : SiteInv cfg initial x) (act : SiteAct) :
    StoreMove cfg.book x.world.store (siteStep cfg x act).world.store := by
  cases act with
  | party act hact => exact (worldStep_partyMove cfg h.fleet.chat h.bill hact).storeMove
  | survey now limit =>
      unfold siteStep
      simp only
      split
      · exact StoreMove.refl _
      · exact StoreMove.refl _
  | repair pass elapsed db =>
      unfold siteStep
      simp only
      split
      · exact StoreMove.refl _
      · next q hq =>
          obtain ⟨q', s', hstep⟩ : ∃ q' s',
              reconcilerStep cfg.book elapsed db q x.world.store = (q', s') := ⟨_, _, rfl⟩
          rw [hstep]
          cases (reconcilerStep_moved hstep).1 with
          | nothing hs =>
              subst hs
              exact StoreMove.refl _
          | settled row hrow call hcall hs => exact StoreMove.settled call hcall.settlement hs

theorem StoreMove.carry {P : Store → Prop} (h : StoreMove book s s') (hinv : ChatInv s)
    (heffect : ∀ {who : Caller} {t t' : Store}, ChatInv t → Effect who t t' → P t → P t')
    (hp : P s) : P s' := by
  cases h with
  | booked who hsettles heff hb =>
      exact (heff.carry hinv (fun hinv heff hp => heffect hinv heff hp) hp).2
  | settled call hcall hs =>
      subst hs
      have hquiet : Effect ⟨none, [], false, true⟩ s
          { s with billing := Billing.step s.billing call } :=
        Effect.quiet ⟨rfl, rfl, rfl, rfl, rfl, rfl⟩ (Or.inr ⟨rfl, call, rfl⟩)
      exact heffect hinv hquiet hp

/-- The invariant holds in every reachable site. -/
theorem siteInv_run (cfg : Config) (h : SiteOpening x) (acts : List SiteAct) :
    SiteInv cfg x.world.store.billing (run (siteStep cfg) x acts) :=
  run_invariant (fun _ act hinv => hinv.step act) h.inv acts

-- =============================================================== sample

def sampleSite : Site := { world := sampleWorld, passes := Table.empty }

theorem sampleSite_opening : SiteOpening sampleSite := by
  refine ⟨sampleWorld_opening, ⟨rfl, fun id w hw => ?_, ?_⟩, rfl, rfl⟩
  · have hmem := Table.mem_rows_of_get hw
    simp only [sampleSite, sampleWorld, sampleStore, List.mem_singleton] at hmem
    rw [hmem]
    decide
  · intro e he
    simp [sampleSite, sampleWorld, sampleStore, Table.empty] at he

/-- A request is accepted. -/
def sampleAccepted : List SiteAct :=
  [.party (.api (sampleSubmit 0 "hi" "k1") sampleSubmit_isApi) rfl]

end Mosaic.Chat
