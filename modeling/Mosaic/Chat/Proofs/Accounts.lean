/-
The accounts of chat: every request, the reservation held for it and the
usage recorded for it.

# Three ways to change them

A step of the conversation store that is no settlement touches the
accounts in three ways only (`Booked`): it leaves the billing rows alone
and completes nothing, it accepts a request at a published price, or it
completes one and records what it used. `Booked` is derived once from the
calls; the invariants below only look at its three cases.

# Two invariants

`OwnerInv` is what `stop` reads of a request: whose it is and its public
id. `ChatBooks` instantiates the accounts of the billing library at the
accepted requests.
-/
import Mosaic.Billing.Proofs.Accounts
import Mosaic.Chat.Proofs.Completion

namespace Mosaic.Chat

open Lib Providers

variable {who : Caller} {s s' : Store} {id : Nat} {r r' : InferenceRequest}
  {e : Execution} {book : Catalog.PriceBook}

-- ========================================================== table sizes

/-- The calls that accept a request. -/
def Op.accepts : Op → Bool
  | .submit .. => true
  | .regenerate .. => true
  | _ => false

theorem terminalWithoutUsage_size {now lockedNow : Nat} {seq : Int} {t : Terminal}
    {x : Bool × Store} (h : terminalWithoutUsage now lockedNow e seq t s = .ok x) :
    x.2.requests.nextId = s.requests.nextId := by
  unfold terminalWithoutUsage at h
  split at h
  · rw [pure_eq_ok] at h
    rw [← h]
  · split at h
    · simp only [bind_eq_ok, pure_eq_ok] at h
      obtain ⟨-, -, rfl⟩ := h
      exact Table.nextId_modify _ _ _
    · rw [pure_eq_ok] at h
      rw [← h]

theorem markCompleted_size {now lockedNow : Nat} {seq : Int} {content : String}
    {provider : Option String} {usage : TokenUsage} {x : Bool × Store}
    (h : markCompleted book now lockedNow e seq content provider usage s = .ok x) :
    x.2.requests.nextId = s.requests.nextId := by
  unfold markCompleted at h
  split at h
  · rw [pure_eq_ok] at h
    rw [← h]
  · split at h
    · simp only [bind_eq_ok, pure_eq_ok] at h
      obtain ⟨-, -, -, -, -, -, -, -, rfl⟩ := h
      exact Table.nextId_modify _ _ _
    · rw [pure_eq_ok] at h
      rw [← h]

theorem reconcileExpiredRow_size (now : Nat) (ids : List Nat) :
    (ids.foldl (reconcileExpiredRow now) s).requests.nextId = s.requests.nextId := by
  induction ids generalizing s with
  | nil => rfl
  | cons id ids ih =>
      rw [List.foldl_cons, ih]
      unfold reconcileExpiredRow
      split
      · rfl
      · split
        · dsimp only
          split
          · exact Table.nextId_modify _ _ _
          · exact Table.nextId_modify _ _ _
        · rfl

theorem clearActiveOnRow_requests {now cid : Nat}
    (h : clearActiveOnRow now s cid id = .ok s') : s'.requests = s.requests := by
  obtain ⟨c, -, -, rfl⟩ := clearActiveOnRow_ok h
  rfl

theorem appendStoppedEvent_requests (now : Nat) (r : InferenceRequest) :
    (appendStoppedEvent now s id r).1.requests = s.requests := by
  unfold appendStoppedEvent
  dsimp only
  split
  · rfl
  · rfl

theorem stop_size {now tenantId actorUserId conversationId requestId : Nat}
    {x : StopResult × Store}
    (h : stop now tenantId actorUserId conversationId requestId s = .ok x) :
    x.2.requests.nextId = s.requests.nextId := by
  simp only [stop, bind_eq_ok] at h
  obtain ⟨c, -, ⟨id, r⟩, -, h⟩ := h
  split at h
  · split at h
    · simp only [bind_eq_ok, pure_eq_ok] at h
      obtain ⟨s₁, hs₁, rfl⟩ := h
      rw [clearActiveOnRow_requests hs₁]
    · simp only [bind_eq_ok, pure_eq_ok] at h
      obtain ⟨s₁, rfl, rfl⟩ := h
      rfl
  · simp only [bind_eq_ok] at h
    obtain ⟨-, -, h⟩ := h
    split at h
    · simp only [stopQueued, bind_eq_ok, pure_eq_ok] at h
      obtain ⟨y, ⟨s₁, hs₁, rfl⟩, rfl⟩ := h
      rw [clearActiveOnRow_requests hs₁, Table.nextId_modify, appendStoppedEvent_requests]
    · rw [pure_eq_ok] at h
      rw [← h]
      exact Table.nextId_modify _ _ _

theorem create_size {now : Nat} {catalog : Catalog.CatalogRows}
    {tenantId actorUserId : Nat} {key clientRequestId requestHash : String}
    {x : Nat × Bool × Store}
    (h : create now catalog tenantId actorUserId key clientRequestId requestHash s
      = .ok x) : x.2.2.requests.nextId = s.requests.nextId := by
  simp only [create, bind_eq_ok] at h
  obtain ⟨⟨idemId, idem, inserted, s₁⟩, hclaim, h⟩ := h
  obtain ⟨t, ht⟩ := claimIdempotency_ok hclaim
  simp only at ht h
  subst ht
  split at h
  · simp only [bind_eq_ok, pure_eq_ok] at h
    obtain ⟨-, -, -, -, rfl⟩ := h
    rfl
  · simp only [bind_eq_ok, pure_eq_ok] at h
    obtain ⟨p, -, rfl⟩ := h
    rfl

theorem claimQueued_size {now : Nat} {catalog : Catalog.CatalogRows}
    {locked : Nat → Bool} {workerId : String} {leaseSeconds : Nat}
    {tenantId requestId : Option Nat} {x : Option Execution × Store}
    (h : claimQueued now catalog locked workerId leaseSeconds tenantId requestId s
      = .ok x) : x.2.requests.nextId = s.requests.nextId := by
  simp only [claimQueued, bind_eq_ok] at h
  obtain ⟨-, -, -, -, h⟩ := h
  split at h
  · rw [pure_eq_ok] at h
    rw [← h]
  · split at h
    · rw [pure_eq_ok] at h
      rw [← h]
    · rw [pure_eq_ok] at h
      rw [← h]
      exact Table.nextId_modify _ _ _

theorem appendDelta_size {ext now lockedNow : Nat} {seq : Int} {delta : String}
    {provider : Option String} {x : Option Int × Store}
    (h : appendDelta ext now lockedNow e seq delta provider s = .ok x) :
    x.2.requests.nextId = s.requests.nextId := by
  simp only [appendDelta, bind_eq_ok] at h
  obtain ⟨-, -, h⟩ := h
  split at h
  · rw [pure_eq_ok] at h
    rw [← h]
  · split at h
    · rw [pure_eq_ok] at h
      rw [← h]
    · simp only [bind_eq_ok, pure_eq_ok] at h
      obtain ⟨-, -, rfl⟩ := h
      exact Table.nextId_modify _ _ _

-- ========================================================= completions

/-- What a completion that took effect recorded. -/
structure CompletedAt (book : Catalog.PriceBook) (s s' : Store) (id : Nat)
    (r r' : InferenceRequest) (price : Billing.PriceSnapshot)
    (u : Billing.UsageRecord) : Prop where
  requests : Table.Replaced s.requests s'.requests id r r'
  same : SameRequest r r'
  running : r.status = .running
  succeeded : r'.status = .succeeded
  published : book r.acceptedPriceVersionId = some price
  usage : u.tenantId = r.tenantId ∧ u.source = .inferenceRequest id
  charge : ∃ charge label, Billing.chargeForUsage price u.usage = .ok charge
    ∧ Billing.pricingVersion price = .ok label
    ∧ u.chargeAmountMinor = charge.amountMinor
  billing : s'.billing = { s.billing with
    usageRecords := s.billing.usageRecords.insert u }

theorem writable_tenant {lockedNow : Nat} {seq : Int} {statuses : List RequestStatus}
    {f : InferenceRequest → Bool}
    (h : (lockedWritableRequest s lockedNow e seq statuses).filter f = some r) :
    r.tenantId = e.tenantId := by
  obtain ⟨h, -⟩ := Option.filter_eq_some_iff.mp h
  obtain ⟨h, -⟩ := Option.filter_eq_some_iff.mp h
  obtain ⟨-, h⟩ := Option.filter_eq_some_iff.mp h
  simp only [Bool.and_eq_true, beq_iff_eq] at h
  exact h.1.1.1

theorem markCompleted_booked {now lockedNow : Nat} {seq : Int} {content : String}
    {provider : Option String} {usage : TokenUsage} {x : Bool × Store}
    (hbill : BillInv s)
    (h : markCompleted book now lockedNow e seq content provider usage s = .ok x) :
    x.2 = s ∨ ∃ r r' price u, CompletedAt book s x.2 e.requestDbId r r' price u := by
  unfold markCompleted at h
  split at h
  · rw [pure_eq_ok] at h
    exact Or.inl (by rw [← h])
  · next r hfilter =>
      have hw := writable_of_filter hfilter
      have hrunning : r.status = .running := by simpa using hw.status
      split at h
      · simp only [bind_eq_ok, pure_eq_ok, mapError_eq_ok] at h
        obtain ⟨price, hprice, charge, hcharge, -, -, usageRecords, hrecord, rfl⟩ := h
        unfold recordUsage at hrecord
        split at hrecord
        · -- nothing is recorded for a request that is running
          next y hfind =>
            obtain ⟨hget, hp⟩ := Table.find_some hfind
            simp only [Bool.and_eq_true, beq_iff_eq] at hp
            obtain ⟨z, hz, hsucc⟩ := hbill.recorded y.1 y.2 _ hget hp.2
            obtain rfl := Option.some.inj (hw.get.symm.trans hz)
            simp [hrunning] at hsucc
        · simp only [bind_eq_ok, pure_eq_ok, mapError_eq_ok] at hrecord
          obtain ⟨label, hlabel, rfl⟩ := hrecord
          refine Or.inr ⟨r, _, price, _,
            { requests := Table.replaced_modify hw.get _
              same := ⟨rfl, rfl, rfl, rfl, rfl, rfl, rfl⟩, running := hrunning
              succeeded := rfl, published := orRaise_eq_ok.mp hprice, usage := ⟨?_, rfl⟩
              charge := ⟨charge, label, hcharge, hlabel, rfl⟩, billing := rfl }⟩
          exact (writable_tenant hfilter).symm
      · rw [pure_eq_ok] at h
        exact Or.inl (by rw [← h])

-- ========================================================= acceptances

/-- What an acceptance agreed on. -/
structure Offered (book : Catalog.PriceBook) (s s' : Store) (r : InferenceRequest)
    (price : Billing.PriceSnapshot) : Prop where
  requests : s'.requests = s.requests.insert r
  queued : r.status = .queued
  uuid : r.requestId = s.nextUuid ∧ s'.nextUuid = s.nextUuid + 1
  owner : ∃ c, s.conversations.get r.conversationId = some c ∧ c.tenantId = r.tenantId
    ∧ r.actorUserId = some c.createdByUserId
  published : book r.acceptedPriceVersionId = some price
  hold : ∃ now expiresAt reservation,
    Billing.reserveInTransaction now r.tenantId "chat_inference" s.requests.nextId
        price expiresAt s.billing = .ok (reservation, s'.billing)
      ∧ r.billingReservationId = some reservation.reservationId

theorem appendRequestTransaction_offered {t : Store} {now : Nat}
    {catalog : Catalog.CatalogRows} {a : Acceptance} {x : ChatRequestRecord × Store}
    (h : appendRequestTransaction now catalog book a t = .ok x) (hbase : SameBase s t)
    {c : Conversation} (hc : lockConversation s a.tenantId a.actorUserId a.conversationId
      = some c) (idemId : Nat) :
    ∃ r price, Offered book s (completeIdempotency x.2 idemId x.1.requestDbId) r price := by
  obtain ⟨hcget, hcp⟩ := Option.filter_eq_some_iff.mp hc
  simp only [Bool.and_eq_true, beq_iff_eq] at hcp
  simp only [appendRequestTransaction, bind_eq_ok, raiseIf_eq_ok, orRaise_eq_ok,
    pure_eq_ok] at h
  obtain ⟨decision, hdecision, -, -, ⟨reservation, billing⟩, hreserve, -, -, c₁, -, rfl⟩ := h
  rw [mapError_eq_ok, hbase.billing, hbase.requests] at hreserve
  refine ⟨acceptedRequest now t.nextUuid (appendMessages now t a).2
      decision.priceVersionId reservation.reservationId a, decision.price,
    { requests := ?_, queued := rfl
      uuid := ⟨hbase.uuid, congrArg (· + 1) hbase.uuid⟩
      owner := ⟨c, hcget, hcp.1, congrArg some hcp.2.symm⟩
      published := Catalog.resolveAcceptedDecision_book hdecision
      hold := ⟨now, now + seconds (15 * 60), reservation, hreserve, rfl⟩ }⟩
  simp only [completeIdempotency, hbase.requests]

theorem submit_offered {now : Nat} {catalog : Catalog.CatalogRows}
    {tenantId actorUserId conversationId : Nat}
    {content clientRequestId requestHash : String} {x : AcceptedChatRequest × Store}
    (h : submit now catalog book tenantId actorUserId conversationId content
      clientRequestId requestHash s = .ok x) :
    SameChat s x.2 ∧ x.2.billing = s.billing ∨ ∃ r price, Offered book s x.2 r price := by
  simp only [submit, bind_eq_ok] at h
  obtain ⟨⟨idemId, idem, inserted, s₁⟩, hclaim, h⟩ := h
  obtain ⟨t, ht⟩ := claimIdempotency_ok hclaim
  simp only at ht h
  subst ht
  split at h
  · simp only [bind_eq_ok, pure_eq_ok] at h
    obtain ⟨-, -, rfl⟩ := h
    exact Or.inl ⟨⟨rfl, rfl, rfl, rfl, rfl, rfl⟩, rfl⟩
  · simp only [bind_eq_ok, orRaise_eq_ok, pure_eq_ok] at h
    obtain ⟨c, hc, -, -, deploymentId, -, ⟨request, s₂⟩, happend, rfl⟩ := h
    exact Or.inr (appendRequestTransaction_offered (s := s) happend
      ⟨rfl, rfl, rfl, rfl, rfl, rfl⟩ hc idemId)

theorem regenerate_offered {now : Nat} {catalog : Catalog.CatalogRows}
    {tenantId actorUserId conversationId messageId : Nat}
    {clientRequestId requestHash : String} {x : AcceptedChatRequest × Store}
    (h : regenerate now catalog book tenantId actorUserId conversationId messageId
      clientRequestId requestHash s = .ok x) :
    SameChat s x.2 ∧ x.2.billing = s.billing ∨ ∃ r price, Offered book s x.2 r price := by
  simp only [regenerate, bind_eq_ok] at h
  obtain ⟨⟨idemId, idem, inserted, s₁⟩, hclaim, h⟩ := h
  obtain ⟨t, ht⟩ := claimIdempotency_ok hclaim
  simp only at ht h
  subst ht
  split at h
  · simp only [bind_eq_ok, pure_eq_ok] at h
    obtain ⟨-, -, rfl⟩ := h
    exact Or.inl ⟨⟨rfl, rfl, rfl, rfl, rfl, rfl⟩, rfl⟩
  · simp only [bind_eq_ok, orRaise_eq_ok, pure_eq_ok] at h
    obtain ⟨c, hc, -, -, target, -, latest, -, -, -, deploymentId, -, ⟨request, s₂⟩,
      happend, rfl⟩ := h
    exact Or.inr (appendRequestTransaction_offered (s := s) happend
      ⟨rfl, rfl, rfl, rfl, rfl, rfl⟩ hc idemId)

-- ============================================================== booked

/-- What a call that settles nothing does to the accounts. -/
inductive Booked (book : Catalog.PriceBook) (s s' : Store) : Prop
  | plain (hsize : s'.requests.nextId = s.requests.nextId)
      (hbilling : s'.billing = s.billing)
      (hcompletes : ∀ id r, s'.requests.get id = some r → r.status = .succeeded →
        s.requests.get id = some r)
  | offered (r : InferenceRequest) (price : Billing.PriceSnapshot)
      (h : Offered book s s' r price)
  | completed (id : Nat) (r r' : InferenceRequest) (price : Billing.PriceSnapshot)
      (u : Billing.UsageRecord) (h : CompletedAt book s s' id r r' price u)

theorem Booked.refl (s : Store) : Booked book s s :=
  Booked.plain rfl rfl fun _ _ hr _ => hr

/-- A row that is replaced by one that did not succeed. -/
theorem replaced_unfinished {j : Nat} (hrep : Table.Replaced s.requests s'.requests j r r')
    (hr' : r'.status ≠ .succeeded) {x : InferenceRequest}
    (hx : s'.requests.get id = some x) (hsucc : x.status = .succeeded) :
    s.requests.get id = some x := by
  obtain ⟨-, rfl⟩ | ⟨-, hx⟩ := hrep.cases hx
  · exact absurd hsucc hr'
  · exact hx

/-- An effect that accepts and completes nothing. -/
theorem Effect.plain (heff : Effect who s s') (hsettles : who.settles = false)
    (hends : who.outcomes.contains .succeeded = false)
    (hsize : s'.requests.nextId = s.requests.nextId) :
    s'.billing = s.billing ∧ ∀ id r, s'.requests.get id = some r →
      r.status = .succeeded → s.requests.get id = some r := by
  cases heff with
  | quiet h hb =>
      obtain hb | ⟨hb, -⟩ := hb
      · exact ⟨hb, fun id r hr _ => by rw [← h.requests, hr]⟩
      · simp [hsettles] at hb
  | opened c h => exact ⟨h.billing, fun id r hr _ => by rw [← h.requests, hr]⟩
  | accepted cid mid c c' x m e o h =>
      rw [h.requests, Table.nextId_insert] at hsize
      omega
  | moved j x x' h hmove =>
      refine ⟨h.billing, fun id r hr hsucc => ?_⟩
      refine replaced_unfinished h.requests (fun hx => ?_) hr hsucc
      exact absurd h.isActive (by simp [hx, RequestStatus.active])
  | delta j x x' m m' e text h =>
      refine ⟨h.billing, fun id r hr hsucc => ?_⟩
      exact replaced_unfinished h.requests (by simp [h.running.2]) hr hsucc
  | ended j x x' c c' m m' e h =>
      have hx' : x'.status ≠ .succeeded := by
        intro hx
        have hout := h.outcome
        rw [hx, hends] at hout
        cases hout
      refine ⟨h.billing.resolve_right fun hb => hx' hb.1, fun id r hr hsucc => ?_⟩
      exact replaced_unfinished h.requests hx' hr hsucc

theorem Effects.unbooked (heff : Effects who s s') (hsettles : who.settles = false)
    (hends : who.outcomes.contains .succeeded = false)
    (hsize : s'.requests.nextId = s.requests.nextId) :
    s'.billing = s.billing ∧ ∀ id r, s'.requests.get id = some r →
      r.status = .succeeded → s.requests.get id = some r := by
  cases heff with
  | one heff => exact heff.plain hsettles hends hsize
  | sweep _ hsweep =>
      clear hsize
      induction hsweep with
      | refl => exact ⟨rfl, fun _ _ hr _ => hr⟩
      | tail _ hswept ih =>
          obtain ⟨hbilling, hkept⟩ := ih
          have hone := hswept
          obtain ⟨j, x, x', c, c', m, m', e, hended⟩ := hone
          obtain ⟨hb, hk⟩ := hswept.effect.plain rfl rfl hended.requests.size
          exact ⟨hb.trans hbilling, fun id r hr hsucc => hkept id r (hk id r hr hsucc) hsucc⟩

theorem Effects.plain (heff : Effects who s s') (hsettles : who.settles = false)
    (hends : who.outcomes.contains .succeeded = false)
    (hsize : s'.requests.nextId = s.requests.nextId) : Booked book s s' := by
  obtain ⟨hbilling, hkept⟩ := heff.unbooked hsettles hends hsize
  exact Booked.plain hsize hbilling hkept

/-- The calls of the two repositories, settlements apart. -/
def Op.isBilling : Op → Bool
  | .billing _ => true
  | _ => false

/-- A call that accepts nothing inserts no request. -/
theorem perform_size {op : Op} (hop : op.accepts = false)
    (h : op.perform book s = .ok s') : s'.requests.nextId = s.requests.nextId := by
  cases op with
  | create now catalog tenantId actorUserId key clientRequestId requestHash =>
      simp only [Op.perform, bind_eq_ok, pure_eq_ok] at h
      obtain ⟨x, hx, rfl⟩ := h
      exact create_size hx
  | submit now catalog tenantId actorUserId conversationId content clientRequestId
      requestHash => cases hop
  | regenerate now catalog tenantId actorUserId conversationId messageId
      clientRequestId requestHash => cases hop
  | stop now tenantId actorUserId conversationId requestId =>
      simp only [Op.perform, bind_eq_ok, pure_eq_ok] at h
      obtain ⟨x, hx, rfl⟩ := h
      exact stop_size hx
  | claimQueued now catalog locked workerId leaseSeconds tenantId requestId =>
      simp only [Op.perform, bind_eq_ok, pure_eq_ok] at h
      obtain ⟨x, hx, rfl⟩ := h
      exact claimQueued_size hx
  | requeueClaimed now e =>
      simp only [Op.perform, pure_eq_ok] at h
      subst h
      unfold requeueClaimed
      split
      · rfl
      · exact Table.nextId_modify _ _ _
  | checkLeaseAndStop ext now e =>
      simp only [Op.perform, pure_eq_ok] at h
      subst h
      unfold checkLeaseAndStop
      split
      · rfl
      · exact Table.nextId_modify _ _ _
  | appendDelta ext now lockedNow e expectedSequence delta provider =>
      simp only [Op.perform, bind_eq_ok, pure_eq_ok] at h
      obtain ⟨x, hx, rfl⟩ := h
      exact appendDelta_size hx
  | markCompleted now lockedNow e expectedSequence content provider usage =>
      simp only [Op.perform, bind_eq_ok, pure_eq_ok] at h
      obtain ⟨x, hx, rfl⟩ := h
      exact markCompleted_size hx
  | markStopped now lockedNow e expectedSequence content =>
      simp only [Op.perform, bind_eq_ok, pure_eq_ok] at h
      obtain ⟨x, hx, rfl⟩ := h
      exact terminalWithoutUsage_size hx
  | markFailed now lockedNow e expectedSequence errorCode errorDetails provider =>
      simp only [Op.perform, bind_eq_ok, pure_eq_ok] at h
      obtain ⟨x, hx, rfl⟩ := h
      exact terminalWithoutUsage_size hx
  | markSubmittedUnknown now lockedNow e provider errorCode =>
      simp only [Op.perform, bind_eq_ok, pure_eq_ok] at h
      obtain ⟨x, hx, rfl⟩ := h
      exact terminalWithoutUsage_size hx
  | reconcileExpiredOnce now limit locked =>
      simp only [Op.perform, reconcileExpiredOnce, bind_eq_ok, pure_eq_ok] at h
      obtain ⟨-, -, rfl⟩ := h
      exact reconcileExpiredRow_size now _
  | billing call =>
      simp only [Op.perform, pure_eq_ok] at h
      rw [← h]

theorem perform_booked (hinv : ChatInv s) (hbill : BillInv s) {op : Op}
    (hop : op.isBilling = false) (h : op.perform book s = .ok s') : Booked book s s' := by
  have heff := perform_effects hinv h
  -- what is neither an acceptance nor a completion books nothing
  have hplain : op.accepts = false → op.caller.settles = false →
      op.caller.outcomes.contains .succeeded = false → Booked book s s' :=
    fun haccepts hsettles hends => heff.plain hsettles hends (perform_size haccepts h)
  cases op with
  | submit now catalog tenantId actorUserId conversationId content clientRequestId
      requestHash =>
      simp only [Op.perform, bind_eq_ok, pure_eq_ok] at h
      obtain ⟨x, hx, rfl⟩ := h
      rcases submit_offered hx with ⟨hsame, hb⟩ | ⟨r, price, hoffer⟩
      · exact Booked.plain (by rw [hsame.requests]) hb
          fun id r hr _ => by rw [← hsame.requests, hr]
      · exact Booked.offered r price hoffer
  | regenerate now catalog tenantId actorUserId conversationId messageId
      clientRequestId requestHash =>
      simp only [Op.perform, bind_eq_ok, pure_eq_ok] at h
      obtain ⟨x, hx, rfl⟩ := h
      rcases regenerate_offered hx with ⟨hsame, hb⟩ | ⟨r, price, hoffer⟩
      · exact Booked.plain (by rw [hsame.requests]) hb
          fun id r hr _ => by rw [← hsame.requests, hr]
      · exact Booked.offered r price hoffer
  | markCompleted now lockedNow e expectedSequence content provider usage =>
      simp only [Op.perform, bind_eq_ok, pure_eq_ok] at h
      obtain ⟨x, hx, rfl⟩ := h
      rcases markCompleted_booked hbill hx with hs | ⟨r, r', price, u, hdone⟩
      · rw [hs]
        exact Booked.refl s
      · exact Booked.completed e.requestDbId r r' price u hdone
  | billing call => cases hop
  | create | stop | claimQueued | requeueClaimed | checkLeaseAndStop | appendDelta
  | markStopped | markFailed | markSubmittedUnknown | reconcileExpiredOnce =>
      exact hplain rfl rfl rfl

theorem step_booked (hinv : ChatInv s) (hbill : BillInv s) {op : Op}
    (hop : op.isBilling = false) : Booked book s (step book s op) := by
  unfold step
  split
  · next s' h => exact perform_booked hinv hbill hop h
  · exact Booked.refl s

-- ============================================================== owners

/-- A conversation keeps its tenant and its creator. -/
theorem Effect.same_conversation (heff : Effect who s s') {cid : Nat} {c : Conversation}
    (hc : s.conversations.get cid = some c) :
    ∃ c', s'.conversations.get cid = some c' ∧ c'.tenantId = c.tenantId
      ∧ c'.createdByUserId = c.createdByUserId := by
  have hframe : ∀ {j y y'}, Table.Replaced s.conversations s'.conversations j y y' →
      y'.tenantId = y.tenantId → y'.createdByUserId = y.createdByUserId →
      ∃ c', s'.conversations.get cid = some c' ∧ c'.tenantId = c.tenantId
        ∧ c'.createdByUserId = c.createdByUserId := by
    intro j y y' hrep ht hcr
    by_cases hj : cid = j
    · subst hj
      obtain rfl := Option.some.inj (hc.symm.trans hrep.old)
      exact ⟨y', hrep.new, ht, hcr⟩
    · exact ⟨c, by rw [hrep.other hj, hc], rfl, rfl⟩
  cases heff with
  | quiet h => exact ⟨c, by rw [h.conversations, hc], rfl, rfl⟩
  | opened c₀ h =>
      exact ⟨c, by rw [h.conversations]; exact Table.get_insert_of_some hc _, rfl, rfl⟩
  | accepted cid' mid c₀ c' x m e o h => exact hframe h.conversations h.tenant h.creator
  | moved j y y' h hmove => exact ⟨c, by rw [h.conversations, hc], rfl, rfl⟩
  | delta j y y' m m' e text h => exact ⟨c, by rw [h.conversations, hc], rfl, rfl⟩
  | ended j y y' c₀ c' m m' e h => exact hframe h.conversations h.tenant h.creator

theorem Effects.same_conversation (heff : Effects who s s') {cid : Nat}
    {c : Conversation} (hc : s.conversations.get cid = some c) :
    ∃ c', s'.conversations.get cid = some c' ∧ c'.tenantId = c.tenantId
      ∧ c'.createdByUserId = c.createdByUserId := by
  cases heff with
  | one heff => exact heff.same_conversation hc
  | sweep _ hsweep =>
      induction hsweep with
      | refl => exact ⟨c, hc, rfl, rfl⟩
      | tail _ hswept ih =>
          obtain ⟨c₁, hc₁, ht₁, hr₁⟩ := ih
          obtain ⟨c₂, hc₂, ht₂, hr₂⟩ := hswept.effect.same_conversation hc₁
          exact ⟨c₂, hc₂, ht₂.trans ht₁, hr₂.trans hr₁⟩

/-- A request belongs to the user whose conversation it is in, and its
public id is its own. -/
structure OwnerInv (s : Store) : Prop where
  owner : ∀ id r, s.requests.get id = some r →
    ∃ c, s.conversations.get r.conversationId = some c ∧ c.tenantId = r.tenantId
      ∧ r.actorUserId = some c.createdByUserId
  uuid : ∀ id r, s.requests.get id = some r → r.requestId < s.nextUuid
  unique : ∀ id j r r', s.requests.get id = some r → s.requests.get j = some r' →
    r'.requestId = r.requestId → id = j

/-- A row of the new table is an old one or the accepted one. -/
theorem Booked.row_cases (hb : Booked book s s') (heff : Effects who s s')
    (hr' : s'.requests.get id = some r') :
    (∃ r, s.requests.get id = some r ∧ SameRequest r r')
      ∨ (id = s.requests.nextId ∧ ∃ price, Offered book s s' r' price) := by
  have hold : id < s.requests.nextId → ∃ r, s.requests.get id = some r
      ∧ SameRequest r r' := by
    intro hlt
    obtain ⟨r, hr⟩ : ∃ r, s.requests.get id = some r := ⟨_, List.getElem?_eq_getElem hlt⟩
    obtain ⟨x, hx, hsame⟩ := heff.same_request hr
    obtain rfl := Option.some.inj (hr'.symm.trans hx)
    exact ⟨r, hr, hsame⟩
  have hlt := Table.lt_nextId hr'
  cases hb with
  | plain hsize hbilling hcompletes => exact Or.inl (hold (hsize ▸ hlt))
  | offered r price h =>
      have hget := hr'
      rw [h.requests] at hget
      obtain ⟨hid, rfl⟩ | hget := Table.get_insert_cases hget
      · exact Or.inr ⟨hid, price, h⟩
      · exact Or.inl (hold (Table.lt_nextId hget))
  | completed j r r₁ price u h => exact Or.inl (hold (h.requests.size ▸ hlt))

theorem OwnerInv.booked (h : OwnerInv s) (heff : Effects who s s')
    (hb : Booked book s s') : OwnerInv s' := by
  have huuid := heff.uuid_le
  refine { owner := ?_, uuid := ?_, unique := ?_ }
  · intro id r' hr'
    have hcarry : ∀ {c : Conversation}, s.conversations.get r'.conversationId = some c →
        c.tenantId = r'.tenantId → r'.actorUserId = some c.createdByUserId →
        ∃ c', s'.conversations.get r'.conversationId = some c'
          ∧ c'.tenantId = r'.tenantId ∧ r'.actorUserId = some c'.createdByUserId := by
      intro c hc ht ha
      obtain ⟨c', hc', ht', ha'⟩ := heff.same_conversation hc
      exact ⟨c', hc', ht'.trans ht, by rw [ha, ha']⟩
    rcases hb.row_cases heff hr' with ⟨r, hr, hsame⟩ | ⟨-, price, hoffer⟩
    · obtain ⟨c, hc, ht, ha⟩ := h.owner id r hr
      rw [← hsame.conversationId] at hc
      exact hcarry hc (ht.trans hsame.tenantId.symm) (hsame.actor.trans ha)
    · obtain ⟨c, hc, ht, ha⟩ := hoffer.owner
      exact hcarry hc ht ha
  · intro id r' hr'
    rcases hb.row_cases heff hr' with ⟨r, hr, hsame⟩ | ⟨-, price, hoffer⟩
    · rw [hsame.requestId]
      exact (h.uuid id r hr).trans_le huuid
    · rw [hoffer.uuid.1, hoffer.uuid.2]
      exact Nat.lt_succ_self _
  · intro id j r₁ r₂ hr₁ hr₂ heq
    rcases hb.row_cases heff hr₁ with ⟨y₁, hy₁, hs₁⟩ | ⟨hid, price, hoffer⟩
    · rcases hb.row_cases heff hr₂ with ⟨y₂, hy₂, hs₂⟩ | ⟨-, price, hoffer⟩
      · exact h.unique id j y₁ y₂ hy₁ hy₂ (by rw [← hs₂.requestId, heq, hs₁.requestId])
      · have hlt := h.uuid id y₁ hy₁
        rw [hs₁.requestId, hoffer.uuid.1] at heq
        omega
    · rcases hb.row_cases heff hr₂ with ⟨y₂, hy₂, hs₂⟩ | ⟨hj, -⟩
      · have hlt := h.uuid j y₂ hy₂
        rw [hs₂.requestId, hoffer.uuid.1] at heq
        omega
      · exact hid.trans hj.symm

-- =============================================================== books

/-- The accounts of chat. -/
structure ChatBooks (book : Catalog.PriceBook) (s : Store) : Prop where
  accounts : Billing.Accounts (s.sources book) s.billing
  /-- A reservation is the one its request was accepted with. -/
  requested : ∀ i b, s.billing.reservations.get i = some b →
    b.sourceType = "chat_inference" ∧ ∃ r, s.requests.get b.sourceId = some r
      ∧ r.tenantId = b.tenantId ∧ r.billingReservationId = some i
  /-- A request is accepted with a reservation. -/
  holds : ∀ id r, s.requests.get id = some r →
    ∃ i b, r.billingReservationId = some i ∧ s.billing.reservations.get i = some b
      ∧ b.sourceType = "chat_inference" ∧ b.sourceId = id ∧ b.tenantId = r.tenantId
  /-- A request that succeeded is metered. -/
  metered : ∀ id r, s.requests.get id = some r → r.status = .succeeded →
    ∃ k u, s.billing.usageRecords.get k = some u ∧ u.tenantId = r.tenantId
      ∧ u.source = .inferenceRequest id

theorem sources_extends
    (h : ∀ id r, s.requests.get id = some r →
      ∃ r', s'.requests.get id = some r' ∧ SameRequest r r') :
    (s.sources book).Extends (s'.sources book) where
  inference := by
    intro t id v hv
    simp only [Store.sources, Option.map_eq_some_iff, Option.filter_eq_some_iff] at hv ⊢
    obtain ⟨r, ⟨hr, ht⟩, rfl⟩ := hv
    obtain ⟨r', hr', hsame⟩ := h id r hr
    exact ⟨r', ⟨hr', by rw [hsame.tenantId]; exact ht⟩, hsame.price⟩
  generation := fun _ _ _ h => h
  prices := rfl

/-- What the books need of the rows a step keeps. -/
theorem ChatBooks.extend (h : ChatBooks book s) {db : Billing.Db}
    (hkept : ∀ id r, s.requests.get id = some r →
      ∃ r', s'.requests.get id = some r' ∧ SameRequest r r')
    (hbilling : s'.billing = db) (hframe : Billing.Frame s.billing db)
    (hold : ∀ id r', s'.requests.get id = some r' →
      ∃ r, s.requests.get id = some r ∧ SameRequest r r'
        ∧ (r'.status = .succeeded → r.status = .succeeded)) : ChatBooks book s' where
  accounts := by
    rw [hbilling]
    exact h.accounts.kept (sources_extends hkept) hframe
  requested := by
    intro i b' hb'
    rw [hbilling] at hb'
    obtain ⟨b, hb, hsame, -⟩ := hframe.old i b' hb'
    obtain ⟨hst, r, hr, ht, hres⟩ := h.requested i b hb
    obtain ⟨r', hr', hsr⟩ := hkept _ r hr
    refine ⟨hsame.source.2.1.trans hst, r', by rw [hsame.source.2.2]; exact hr', ?_, ?_⟩
    · rw [hsr.tenantId, ht, hsame.source.1]
    · rw [hsr.reservation, hres]
  holds := by
    intro id r' hr'
    obtain ⟨r, hr, hsr, -⟩ := hold id r' hr'
    obtain ⟨i, b, hres, hb, hst, hid, ht⟩ := h.holds id r hr
    obtain ⟨b', hb', hsame⟩ := hframe.new i b hb
    refine ⟨i, b', hsr.reservation.trans hres, by rw [hbilling]; exact hb',
      hsame.source.2.1.trans hst, hsame.source.2.2.trans hid, ?_⟩
    rw [hsame.source.1, ht, hsr.tenantId]
  metered := by
    intro id r' hr' hsucc
    obtain ⟨r, hr, hsr, hfrom⟩ := hold id r' hr'
    obtain ⟨k, u, hu, ht, hs⟩ := h.metered id r hr (hfrom hsucc)
    obtain ⟨u', hu', hsu⟩ := hframe.usages.new hu
    refine ⟨k, u', by rw [hbilling]; exact hu', ?_, hsu.source.trans hs⟩
    rw [hsu.tenant, ht, hsr.tenantId]

/-- An acceptance holds for a request nothing is held for yet. -/
theorem Offered.unheld (hbill : BillInv s) : ∀ i b,
    s.billing.reservations.get i = some b →
    ¬ (b.sourceType = "chat_inference" ∧ b.sourceId = s.requests.nextId) := by
  rintro i b hb ⟨hst, hid⟩
  have := hbill.sourced i b hb hst
  omega

/-- The hold of an acceptance is a new row, of the new request. -/
theorem Offered.inserted (hbill : BillInv s) {price : Billing.PriceSnapshot}
    (ho : Offered book s s' r price) :
    s'.billing.usageRecords = s.billing.usageRecords
      ∧ r.billingReservationId = some s.billing.reservations.nextId
      ∧ ∃ b, s'.billing.reservations = s.billing.reservations.insert b
        ∧ b.tenantId = r.tenantId ∧ b.sourceType = "chat_inference"
        ∧ b.sourceId = s.requests.nextId := by
  obtain ⟨now, expiresAt, res, hreserve, hres⟩ := ho.hold
  have hnone : Billing.findReservationBySource s.billing r.tenantId "chat_inference"
      s.requests.nextId = none := by
    cases hfind : Billing.findReservationBySource s.billing r.tenantId "chat_inference"
        s.requests.nextId with
    | none => rfl
    | some y =>
        obtain ⟨hget, hp⟩ := Table.find_some hfind
        simp only [Bool.and_eq_true, beq_iff_eq] at hp
        exact absurd ⟨hp.1.2, hp.2⟩ (Offered.unheld hbill y.1 y.2 hget)
  obtain ⟨husages, hrid, b, hins, hbt, hbs, hbi, -, -⟩ :=
    Billing.reserveInTransaction_fresh chatInference_normal hnone hreserve
  exact ⟨husages, hres.trans (congrArg some hrid), b, hins, hbt, hbs, hbi⟩

theorem ChatBooks.offered (h : ChatBooks book s) (hbill : BillInv s)
    {price : Billing.PriceSnapshot} (ho : Offered book s s' r price) :
    ChatBooks book s' := by
  obtain ⟨now, expiresAt, res, hreserve, -⟩ := ho.hold
  obtain ⟨husages, hres, b, hins, hbt, hbs, hbi⟩ := ho.inserted hbill
  have hkept : ∀ id x, s.requests.get id = some x → s'.requests.get id = some x := by
    intro id x hx
    rw [ho.requests]
    exact Table.get_insert_of_some hx _
  have hnew : s'.requests.get s.requests.nextId = some r := by
    rw [ho.requests]
    exact Table.get_insert_self _ _
  refine { accounts := ?_, requested := ?_, holds := ?_, metered := ?_ }
  · refine h.accounts.held (sources_extends fun id x hx =>
      ⟨x, hkept id x hx, ⟨rfl, rfl, rfl, rfl, rfl, rfl, rfl⟩⟩) chatInference_normal
      (Offered.unheld hbill) ?_ hreserve
    intro y hst hid
    unfold Billing.priceForReservation
    simp only [if_pos hst, bind_eq_ok, orRaise_eq_ok, Store.sources,
      Option.map_eq_some_iff, Option.filter_eq_some_iff]
    exact ⟨_, ⟨r, ⟨by rw [hid, hnew], by simp⟩, rfl⟩, ho.published⟩
  · intro i y hy
    rw [hins] at hy
    obtain ⟨rfl, rfl⟩ | hy := Table.get_insert_cases hy
    · exact ⟨hbs, r, by rw [hbi, hnew], hbt.symm, hres⟩
    · obtain ⟨hst, x, hx, hrest⟩ := h.requested i y hy
      exact ⟨hst, x, hkept _ x hx, hrest⟩
  · intro id x hx
    rw [ho.requests] at hx
    rw [hins]
    obtain ⟨rfl, rfl⟩ | hx := Table.get_insert_cases hx
    · exact ⟨_, b, hres, Table.get_insert_self _ _, hbs, hbi, hbt⟩
    · obtain ⟨i, y, hxi, hy, hrest⟩ := h.holds id x hx
      exact ⟨i, y, hxi, Table.get_insert_of_some hy _, hrest⟩
  · intro id x hx hsucc
    rw [ho.requests] at hx
    rw [husages]
    obtain ⟨-, rfl⟩ | hx := Table.get_insert_cases hx
    · rw [ho.queued] at hsucc
      cases hsucc
    · exact h.metered id x hx hsucc

theorem ChatBooks.completed (h : ChatBooks book s) (hbill : BillInv s)
    {price : Billing.PriceSnapshot} {u : Billing.UsageRecord}
    (hd : CompletedAt book s s' id r r' price u) : ChatBooks book s' := by
  obtain ⟨charge, label, hcharge, hlabel, hpaid⟩ := hd.charge
  obtain ⟨i, b, hres, hb, hst, hid, ht⟩ := h.holds id r hd.requests.old
  have hkept : ∀ j x, s.requests.get j = some x →
      ∃ x', s'.requests.get j = some x' ∧ SameRequest x x' := by
    intro j x hx
    by_cases hj : j = id
    · subst hj
      obtain rfl := Option.some.inj (hx.symm.trans hd.requests.old)
      exact ⟨r', hd.requests.new, hd.same⟩
    · exact ⟨x, by rw [hd.requests.other hj, hx], ⟨rfl, rfl, rfl, rfl, rfl, rfl, rfl⟩⟩
  have hmeters : Billing.Meters b u := by
    refine ⟨hd.usage.1.trans ht.symm, Billing.usageSource?_eq_some.mpr (Or.inl ⟨hst, ?_⟩)⟩
    rw [hid]
    exact hd.usage.2
  have hcharged : Billing.Charged (s.sources book) b u := by
    refine ⟨price, charge, label, ?_, hcharge, hlabel, hpaid⟩
    unfold Billing.priceForReservation
    simp only [if_pos hst, bind_eq_ok, orRaise_eq_ok, Store.sources,
      Option.map_eq_some_iff, Option.filter_eq_some_iff]
    exact ⟨_, ⟨r, ⟨by rw [hid, hd.requests.old], by simp [ht]⟩, rfl⟩, hd.published⟩
  have hfirst : ∀ k v, s.billing.usageRecords.get k = some v →
      ¬ (v.tenantId = u.tenantId ∧ v.source = u.source) := by
    rintro k v hv ⟨-, hsrc⟩
    obtain ⟨y, hy, hsucc⟩ := hbill.recorded k v id hv (hsrc.trans hd.usage.2)
    obtain rfl := Option.some.inj (hd.requests.old.symm.trans hy)
    rw [hd.running] at hsucc
    cases hsucc
  -- the usage first, then the rows
  have hrecorded : ChatBooks book { s with billing := s'.billing } := by
    have hb' := hd.billing
    refine { accounts := ?_, requested := ?_, holds := ?_, metered := ?_ }
    · rw [hb']
      exact h.accounts.recorded hb hmeters hcharged hfirst
    · rw [hb']
      exact h.requested
    · rw [hb']
      exact h.holds
    · intro j x hx hsucc
      obtain ⟨k, v, hv, hrest⟩ := h.metered j x hx hsucc
      exact ⟨k, v, by rw [hb']; exact Table.get_insert_of_some hv _, hrest⟩
  refine { accounts := ?_, requested := ?_, holds := ?_, metered := ?_ }
  · exact hrecorded.accounts.kept (sources_extends hkept) (Billing.Frame.refl _)
  · intro j y hy
    obtain ⟨hyst, x, hx, hxt, hxres⟩ := hrecorded.requested j y hy
    obtain ⟨x', hx', hsame⟩ := hkept _ x hx
    exact ⟨hyst, x', hx', hsame.tenantId.trans hxt, hsame.reservation.trans hxres⟩
  · intro j x' hx'
    obtain ⟨rfl, rfl⟩ | ⟨-, hx⟩ := hd.requests.cases hx'
    · obtain ⟨k, y, hxk, hy, hyst, hyid, hyt⟩ := hrecorded.holds j r hd.requests.old
      exact ⟨k, y, hd.same.reservation.trans hxk, hy, hyst, hyid,
        hyt.trans hd.same.tenantId.symm⟩
    · exact hrecorded.holds j x' hx
  · intro j x' hx' hsucc
    obtain ⟨rfl, rfl⟩ | ⟨-, hx⟩ := hd.requests.cases hx'
    · refine ⟨_, u, by rw [hd.billing]; exact Table.get_insert_self _ _, ?_, hd.usage.2⟩
      exact hd.usage.1.trans hd.same.tenantId.symm
    · exact hrecorded.metered j x' hx hsucc

/-- A call that settles nothing keeps the books. -/
theorem ChatBooks.booked (h : ChatBooks book s) (hbill : BillInv s)
    (heff : Effects who s s') (hb : Booked book s s') : ChatBooks book s' := by
  have hrows := fun {id r'} (hr' : s'.requests.get id = some r') => hb.row_cases heff hr'
  cases hb with
  | plain hsize hbilling hcompletes =>
      refine h.extend (fun id r hr => heff.same_request hr) hbilling
        (Billing.Frame.refl _) fun id r' hr' => ?_
      rcases hrows hr' with ⟨r, hr, hsame⟩ | ⟨hid, -⟩
      · refine ⟨r, hr, hsame, fun hsucc => ?_⟩
        have := hcompletes id r' hr' hsucc
        rw [hr] at this
        rw [Option.some.inj this]
        exact hsucc
      · have := Table.lt_nextId hr'
        omega
  | offered r price ho => exact h.offered hbill ho
  | completed j r r' price u hd => exact h.completed hbill hd

/-- A settlement of the system keeps the books. -/
theorem ChatBooks.settled (h : ChatBooks book s) {call : Billing.Call}
    (hcall : Settlement book s call) :
    ChatBooks book { s with billing := Billing.step s.billing call } := by
  refine h.extend (fun id r hr => ⟨r, hr, ⟨rfl, rfl, rfl, rfl, rfl, rfl, rfl⟩⟩) rfl ?_
    fun id r hr => ⟨r, hr, ⟨rfl, rfl, rfl, rfl, rfl, rfl, rfl⟩, fun hs => hs⟩
  unfold Billing.step
  cases hcall with
  | release now tenantId reservationId =>
      simp only [Billing.Call.perform]
      split
      · next db hdb =>
          simp only [bind_eq_ok, pure_eq_ok] at hdb
          obtain ⟨x, hx, rfl⟩ := hdb
          exact Billing.release_kept hx
      · exact Billing.Frame.refl _
  | capture now tenantId reservationId usage =>
      simp only [Billing.Call.perform]
      split
      · next db hdb =>
          simp only [bind_eq_ok, pure_eq_ok] at hdb
          obtain ⟨x, hx, rfl⟩ := hdb
          exact Billing.capture_kept h.accounts rfl hx
      · exact Billing.Frame.refl _

end Mosaic.Chat
