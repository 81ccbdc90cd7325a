/-
A stop is final.

`Heeded` is what a committed stop leaves in the chat rows: a request that
is to stop or has stopped (or failed instead), and the deltas it had
written. Every effect keeps it (`Heeded.effect`): a lease moves or a delta
is written on a running request only, and an ending from `stop_requested`
is a stop or a failure.

The money follows from the invariant of the site. A captured amount needs
a recorded usage, a recorded usage a request that succeeded, and a hold
that was not captured is pending or released in full.
-/
import Mosaic.Chat.Proofs.Site

namespace Mosaic.Chat

open Lib

variable {cfg : Config} {who : Caller} {s s' : Store} {x : Site} {id : Nat}
  {r : InferenceRequest} {initial : Billing.Db} {written : List StreamEvent}

-- ================================================================ deltas

def EventBody.isDelta : EventBody → Bool
  | .delta _ => true
  | _ => false

/-- The deltas appended to a request. -/
def Store.deltaEvents (s : Store) (id : Nat) : List StreamEvent :=
  (s.log id).filter fun e => e.body.isDelta

theorem deltaEvents_congr (h : s'.events = s.events) :
    s'.deltaEvents id = s.deltaEvents id := by
  unfold Store.deltaEvents
  rw [log_congr h]

theorem deltaEvents_insert_other {e : StreamEvent} (h : s'.events = s.events.insert e)
    (he : e.inferenceRequestId ≠ id) : s'.deltaEvents id = s.deltaEvents id := by
  unfold Store.deltaEvents
  rw [log_insert_other h he]

/-- A terminal event is no delta. -/
theorem deltaEvents_insert_terminal {e : StreamEvent}
    (h : s'.events = s.events.insert e) (he : e.body.terminal = true) :
    s'.deltaEvents id = s.deltaEvents id := by
  have hbody : e.body.isDelta = false := by
    cases hb : e.body <;> simp_all [EventBody.terminal, EventBody.isDelta]
  by_cases hid : e.inferenceRequestId = id
  · unfold Store.deltaEvents
    rw [log_insert_self h hid, List.filter_append]
    simp [hbody]
  · exact deltaEvents_insert_other h hid

-- ================================================================ heeded

/-- What is left to a request once it is to stop. -/
def RequestStatus.stops : RequestStatus → Bool
  | .stopRequested => true
  | .stopped => true
  | .failed => true
  | _ => false

/-- The request is to stop or has stopped, with `written` as its
deltas. -/
structure Heeded (id : Nat) (written : List StreamEvent) (s : Store) : Prop where
  status : ∃ r, s.requests.get id = some r ∧ r.status.stops = true
  deltas : s.deltaEvents id = written

/-- The one way on for an active request that is to stop. -/
theorem RequestStatus.eq_stopRequested {st : RequestStatus} (hstops : st.stops = true)
    (hactive : st.active = true) : st = .stopRequested := by
  cases st <;> simp_all [stops, active]

theorem Heeded.moved {r' : InferenceRequest} {j : Nat} (h : Heeded id written s)
    (hm : Moved s s' j r r') (hmove : LeaseMove who s s' r r') :
    Heeded id written s' := by
  obtain ⟨y, hy, hstops⟩ := h.status
  refine ⟨?_, (deltaEvents_congr hm.events).trans h.deltas⟩
  by_cases hj : id = j
  · subst hj
    obtain rfl := Option.some.inj (hy.symm.trans hm.requests.old)
    have hst := RequestStatus.eq_stopRequested hstops hm.wasActive
    refine ⟨r', hm.requests.new, ?_⟩
    cases hmove with
    | claimed hold => simp [hst] at hold
    | requeued hold => simp [hst] at hold
    | beat hsame =>
        rw [hsame]
        exact hstops
    | stopRequested hold hnew =>
        rw [hnew]
        rfl
  · exact ⟨y, (hm.requests.other hj).trans hy, hstops⟩

theorem Heeded.ended {r' : InferenceRequest} {j : Nat} {c c' : Conversation}
    {m m' : Message} {e : StreamEvent} (h : Heeded id written s)
    (he : Ended who s s' j r r' c c' m m' e) : Heeded id written s' := by
  obtain ⟨y, hy, hstops⟩ := h.status
  refine ⟨?_, (deltaEvents_insert_terminal he.events he.eventTerminal).trans h.deltas⟩
  by_cases hj : id = j
  · subst hj
    obtain rfl := Option.some.inj (hy.symm.trans he.requests.old)
    have hst := RequestStatus.eq_stopRequested hstops he.wasActive
    refine ⟨r', he.requests.new, ?_⟩
    cases he.heeded hst with
    | inl hnew =>
        rw [hnew]
        rfl
    | inr hnew =>
        rw [hnew]
        rfl
  · exact ⟨y, (he.requests.other hj).trans hy, hstops⟩

/-- No effect takes a stop back. -/
theorem Heeded.effect (h : Heeded id written s) (heff : Effect who s s') :
    Heeded id written s' := by
  obtain ⟨y, hy, hstops⟩ := h.status
  cases heff with
  | quiet hq => exact ⟨⟨y, hq.requests ▸ hy, hstops⟩,
      (deltaEvents_congr hq.events).trans h.deltas⟩
  | opened c ho => exact ⟨⟨y, ho.requests ▸ hy, hstops⟩,
      (deltaEvents_congr ho.events).trans h.deltas⟩
  | accepted cid mid c c' z m e o ha =>
      have hother : e.inferenceRequestId ≠ id := by
        have := Table.lt_nextId hy
        rw [ha.eventRequest]
        omega
      refine ⟨⟨y, ?_, hstops⟩, (deltaEvents_insert_other ha.events hother).trans h.deltas⟩
      rw [ha.requests]
      exact Table.get_insert_of_some hy _
  | moved j z z' hm hmove => exact h.moved hm hmove
  | delta j z z' m m' e text hd =>
      -- only a running request is streamed into
      have hj : id ≠ j := by
        rintro rfl
        obtain rfl := Option.some.inj (hy.symm.trans hd.requests.old)
        simp [hd.running.1, RequestStatus.stops] at hstops
      have hother : e.inferenceRequestId ≠ id := by
        rw [hd.eventRequest]
        exact hj.symm
      exact ⟨⟨y, (hd.requests.other hj).trans hy, hstops⟩,
        (deltaEvents_insert_other hd.events hother).trans h.deltas⟩
  | ended j z z' c c' m m' e he => exact h.ended he

theorem SiteInv.heeded (h : SiteInv cfg initial x)
    (hheeded : Heeded id written x.world.store) (act : SiteAct) :
    Heeded id written (siteStep cfg x act).world.store :=
  (h.storeMove act).carry h.fleet.chat (fun _ heff hp => Heeded.effect hp heff) hheeded

theorem SiteInv.heeded_run (h : SiteInv cfg initial x)
    (hheeded : Heeded id written x.world.store) (more : List SiteAct) :
    SiteInv cfg initial (run (siteStep cfg) x more)
      ∧ Heeded id written (run (siteStep cfg) x more).world.store := by
  induction more generalizing x with
  | nil => exact ⟨h, hheeded⟩
  | cons act more ih => exact ih (h.step act) (h.heeded hheeded act)

-- ============================================================== the hold

/-- The hold of a request that did not succeed: kept, or given back in
full. -/
structure Unspent (s : Store) (i : Nat) (b : Billing.BalanceReservation) : Prop where
  uncaptured : b.status ≠ .committed ∧ b.capturedAmountMinor = none
  whole : b.status ≠ .pending → b.status = .released
    ∧ (Billing.entriesOf s.billing i).map (fun e => (e.entryType, e.amountMinor))
      = [(.hold, b.amountMinor), (.release, b.amountMinor)]

theorem SiteInv.unspent (h : SiteInv cfg initial x)
    (hr : x.world.store.requests.get id = some r) (hst : r.status ≠ .succeeded)
    {i : Nat} {b : Billing.BalanceReservation} (hres : r.billingReservationId = some i)
    (hb : x.world.store.billing.reservations.get i = some b) :
    Unspent x.world.store i b := by
  obtain ⟨b₁, hb₁, htype, hsource⟩ := h.bill.held id r i hr hres
  obtain rfl := Option.some.inj (hb.symm.trans hb₁)
  have hnone : b.capturedAmountMinor = none := by
    by_contra hcaptured
    obtain ⟨k, u, hu, husource⟩ := h.bill.captured i b hb htype hcaptured
    obtain ⟨y, hy, hsucceeded⟩ := h.bill.recorded k u _ hu husource
    rw [hsource] at hy
    obtain rfl := Option.some.inj (hr.symm.trans hy)
    exact hst hsucceeded
  have hsettled := h.money.settled i b hb
  refine ⟨⟨?_, hnone⟩, fun hpending => ?_⟩
  · intro hcommitted
    simp [hcommitted, hnone] at hsettled
  · have hreleased : b.status = .released := by
      obtain hp | hreleased | ⟨-, c, hc, -⟩ := hsettled
      · exact absurd hp hpending
      · exact hreleased
      · simp [hnone] at hc
    refine ⟨hreleased, ?_⟩
    rw [h.money.entries i b hb, Billing.expectedEntries, hreleased]

-- ============================================================ the stop

theorem stopQueued_status {now conversationId : Nat} {y : Int × Store}
    (hr : s.requests.get id = some r)
    (h : stopQueued now s conversationId id r = .ok y) :
    ∃ r', y.2.requests.get id = some r' ∧ r'.status = .stopped := by
  simp only [stopQueued, bind_eq_ok, pure_eq_ok] at h
  obtain ⟨s₁, hclear, rfl⟩ := h
  have hrequests := clearActiveOnRow_requests hclear
  dsimp only at hrequests
  rw [appendStoppedEvent_requests] at hrequests
  have hnew : ∀ sequence : Int, ∃ r',
      (s.requests.modify id fun r => { r with status := .stopped
                                              completedAt := some now, updatedAt := now
                                              lastEventSequence := sequence }).get id
        = some r' ∧ r'.status = .stopped :=
    fun sequence => ⟨_, (Table.replaced_modify hr _).new, rfl⟩
  dsimp only
  rw [hrequests]
  exact hnew _

/-- A stop that commits leaves the request in the status it reports. -/
theorem stop_status {now tenantId actorUserId conversationId requestId : Nat}
    {y : StopResult × Store}
    (h : stop now tenantId actorUserId conversationId requestId s = .ok y) :
    ∃ id r r', s.requests.get id = some r ∧ r.tenantId = tenantId
      ∧ r.conversationId = conversationId ∧ r.requestId = requestId
      ∧ y.2.requests.get id = some r' ∧ r'.status = y.1.status := by
  simp only [stop, bind_eq_ok, orRaise_eq_ok] at h
  obtain ⟨c, -, ⟨id, r⟩, hfind, h⟩ := h
  obtain ⟨hr, hmatch⟩ := Table.find_some hfind
  simp only [Bool.and_eq_true, beq_iff_eq] at hmatch
  obtain ⟨⟨⟨htenant, -⟩, hconversation⟩, hrequest⟩ := hmatch
  have hfound : ∀ {t : Store} {st : RequestStatus}, (∃ r', t.requests.get id = some r'
      ∧ r'.status = st) → ∃ id r r', s.requests.get id = some r ∧ r.tenantId = tenantId
        ∧ r.conversationId = conversationId ∧ r.requestId = requestId
        ∧ t.requests.get id = some r' ∧ r'.status = st := by
    rintro t st ⟨r', hr', hst⟩
    exact ⟨id, r, r', hr, htenant, hconversation, hrequest, hr', hst⟩
  split at h
  · split at h
    · simp only [bind_eq_ok, pure_eq_ok] at h
      obtain ⟨t, ht, rfl⟩ := h
      exact hfound ⟨r, by rw [clearActiveOnRow_requests ht, hr], rfl⟩
    · simp only [bind_eq_ok, pure_eq_ok] at h
      obtain ⟨t, rfl, rfl⟩ := h
      exact hfound ⟨r, hr, rfl⟩
  · simp only [bind_eq_ok] at h
    obtain ⟨-, -, h⟩ := h
    split at h
    · simp only [bind_eq_ok, pure_eq_ok] at h
      obtain ⟨z, hz, rfl⟩ := h
      exact hfound (stopQueued_status hr hz)
    · rw [pure_eq_ok] at h
      subst h
      exact hfound ⟨_, (Table.replaced_modify hr _).new, rfl⟩

-- ================================================================= runs

/-- What a stop settles for good. -/
structure StopFinal (id : Nat) (written : List StreamEvent) (s : Store) : Prop where
  /-- It never succeeds and never becomes unknown. -/
  outcome : ∃ r, s.requests.get id = some r
    ∧ (r.status = .stopRequested ∨ r.status = .stopped ∨ r.status = .failed)
  /-- No further delta is appended. -/
  deltas : s.deltaEvents id = written
  /-- Its hold is never captured, and given back in full once settled. -/
  hold : ∃ r i b, s.requests.get id = some r ∧ r.billingReservationId = some i
    ∧ s.billing.reservations.get i = some b ∧ Unspent s i b

theorem SiteInv.stopFinal (h : SiteInv cfg initial x)
    (hheeded : Heeded id written x.world.store) :
    StopFinal id written x.world.store := by
  obtain ⟨r, hr, hstops⟩ := hheeded.status
  obtain ⟨i, b, hres, hb, -⟩ := h.books.holds id r hr
  have hst : r.status ≠ .succeeded := by
    intro hst
    simp [hst, RequestStatus.stops] at hstops
  refine ⟨⟨r, hr, ?_⟩, hheeded.deltas, r, i, b, hr, hres, hb, h.unspent hr hst hres hb⟩
  cases hs : r.status <;> simp_all [RequestStatus.stops]

/-- Once a stop has committed on a request, whatever the worker, the lease
sweep, the billing reconciler or another caller does afterwards: the
request stops or fails, its log gets no further delta, and its hold is
released whole or not at all. -/
theorem stop_final (cfg : Config) (h : SiteOpening x) (acts : List SiteAct)
    {now tenantId actorUserId conversationId requestId : Nat} {result : StopResult}
    (hstop : stop now tenantId actorUserId conversationId requestId
      (run (siteStep cfg) x acts).world.store = .ok (result, s'))
    (hstatus : result.status = .stopRequested ∨ result.status = .stopped) :
    ∃ id r, s'.requests.get id = some r ∧ r.tenantId = tenantId
      ∧ r.conversationId = conversationId ∧ r.requestId = requestId
      ∧ ∀ more, StopFinal id (s'.deltaEvents id)
        (run (siteStep cfg) x (acts ++ .party (.api
          (.stop now tenantId actorUserId conversationId requestId) rfl) rfl
          :: more)).world.store := by
  have hinv := siteInv_run cfg h acts
  have hstep := hinv.step (.party (.api
    (.stop now tenantId actorUserId conversationId requestId) rfl) rfl)
  have hstore : (siteStep cfg (run (siteStep cfg) x acts) (.party (.api
      (.stop now tenantId actorUserId conversationId requestId) rfl) rfl)).world.store
      = s' := by
    simp only [siteStep, worldStep, step, Op.perform, hstop]
    rfl
  obtain ⟨id, r, r', hr, htenant, hconversation, hrequest, hr', hst⟩ := stop_status hstop
  obtain ⟨y, hy, hsame⟩ := (stop_effect hinv.fleet.chat hstop).same_request hr
  obtain rfl := Option.some.inj (hr'.symm.trans hy)
  have hheeded : Heeded id (s'.deltaEvents id) s' := by
    refine ⟨⟨r', hr', ?_⟩, rfl⟩
    rw [hst]
    cases hstatus with
    | inl hs =>
        rw [hs]
        rfl
    | inr hs =>
        rw [hs]
        rfl
  refine ⟨id, r', hr', hsame.tenantId.trans htenant,
    hsame.conversationId.trans hconversation, hsame.requestId.trans hrequest,
    fun more => ?_⟩
  rw [run_append, run_cons]
  have hnow : Heeded id (s'.deltaEvents id) (siteStep cfg (run (siteStep cfg) x acts)
      (.party (.api (.stop now tenantId actorUserId conversationId requestId) rfl)
        rfl)).world.store := by
    rw [hstore]
    exact hheeded
  obtain ⟨hend, hkept⟩ := hstep.heeded_run hnow more
  exact hend.stopFinal hkept

-- =============================================================== sample

theorem sampleClaim_isParty :
    (Act.claim 1 sampleCatalog (fun _ => false) "worker" 60 none none).isParty = true := rfl

/-- A worker has claimed the request. -/
def sampleClaimed : List SiteAct :=
  sampleAccepted
    ++ [.party (.claim 1 sampleCatalog (fun _ => false) "worker" 60 none none)
          sampleClaim_isParty]

/-- The status a stop reports. -/
def reportedStatus : Except ChatError (StopResult × Store) → Option RequestStatus
  | .ok y => some y.1.status
  | .error _ => none

/-- A stop while the worker streams. -/
theorem stop_final_sample :
    ∃ (s' : Store) (id : Nat), ∀ more, StopFinal id (s'.deltaEvents id)
      (run (siteStep sampleConfig) sampleSite
        (sampleClaimed ++ .party (.api (.stop 5 1 2 0 0) rfl) rfl :: more)).world.store := by
  have hreport : reportedStatus (stop 5 1 2 0 0
      (run (siteStep sampleConfig) sampleSite sampleClaimed).world.store)
        = some .stopRequested := by
    decide +kernel
  cases hstop : stop 5 1 2 0 0
      (run (siteStep sampleConfig) sampleSite sampleClaimed).world.store with
  | error e =>
      rw [hstop] at hreport
      cases hreport
  | ok y =>
      obtain ⟨result, s'⟩ := y
      rw [hstop] at hreport
      obtain ⟨id, r, -, -, -, -, hfinal⟩ := stop_final sampleConfig sampleSite_opening
        sampleClaimed hstop (Or.inl (Option.some.inj hreport))
      exact ⟨s', id, hfinal⟩

end Mosaic.Chat
