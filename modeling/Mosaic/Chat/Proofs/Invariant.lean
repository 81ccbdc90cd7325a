/-
The invariant of the conversation store.

# Four parts

- `PointerInv`: the busy pointer of a conversation and the active
  statuses of its requests say the same thing, and a lease token is
  younger than the next one.
- `LogInv`: every request owns a well-formed event log.
- `LinkInv`: an active request streams into its own message, whose
  content is the concatenation of the deltas logged so far.
- `CommandInv`: the outbox commands of a conversation carry strictly
  increasing versions, none above the conversation's.

Each part is shown against the six effects; `ChatInv.effect` puts them
together.
-/
import Mosaic.Chat.Proofs.Effects

namespace Mosaic.Chat

open Lib

variable {who : Caller} {s s' : Store} {id cid mid : Nat}
  {r r' : InferenceRequest} {c c' : Conversation} {m m' : Message}
  {e : StreamEvent} {o : OutboxEvent} {text : String}

-- ============================================================ the parts

structure PointerInv (s : Store) : Prop where
  /-- A pointer names an active request of its conversation. -/
  sound : ∀ cid c id, s.conversations.get cid = some c →
    c.activeInferenceRequestId = some id →
    ∃ r, s.requests.get id = some r ∧ r.conversationId = cid
      ∧ r.tenantId = c.tenantId ∧ r.status.active = true
  /-- An active request is the pointer of its conversation. -/
  complete : ∀ id r, s.requests.get id = some r → r.status.active = true →
    ∃ c, s.conversations.get r.conversationId = some c
      ∧ c.activeInferenceRequestId = some id
  /-- A request is active or over. -/
  status : ∀ id r, s.requests.get id = some r →
    r.status.active = true ∨ r.status.final = true
  /-- A queued request carries no lease. -/
  unleased : ∀ id r, s.requests.get id = some r → r.status = .queued →
    r.leaseToken = none
  /-- Every issued token is older than the next one. -/
  tokens : ∀ id r t, s.requests.get id = some r → r.leaseToken = some t →
    t < s.nextUuid

structure LogInv (s : Store) : Prop where
  wellFormed : ∀ id r, s.requests.get id = some r → LogWellFormed r (s.log id)
  tenant : ∀ id r, s.requests.get id = some r →
    ∀ e ∈ s.log id, e.tenantId = r.tenantId
  known : ∀ e ∈ s.events.rows, e.inferenceRequestId < s.requests.nextId

structure LinkInv (s : Store) : Prop where
  /-- An active request streams into its message. -/
  linked : ∀ id r, s.requests.get id = some r → r.status.active = true →
    ∃ m, s.messages.get r.messageId = some m ∧ m.requestId = some id
      ∧ m.status = .streaming ∧ m.tenantId = r.tenantId
      ∧ m.conversationId = r.conversationId ∧ m.content = deltas (s.log id)
  /-- A message is linked to a request that answers into it. -/
  owner : ∀ mid m id, s.messages.get mid = some m → m.requestId = some id →
    ∃ r, s.requests.get id = some r ∧ r.messageId = mid
      ∧ r.conversationId = m.conversationId ∧ r.tenantId = m.tenantId

/-- The versions of a conversation's outbox commands, in acceptance
order. -/
def commandVersions (s : Store) (cid : Nat) : List Nat :=
  (s.outbox.rows.filter fun o => o.aggregateId == cid).map (·.aggregateVersion)

structure CommandInv (s : Store) : Prop where
  increasing : ∀ cid, (commandVersions s cid).Pairwise (· < ·)
  bounded : ∀ cid c, s.conversations.get cid = some c →
    ∀ v ∈ commandVersions s cid, v ≤ c.version
  known : ∀ o ∈ s.outbox.rows, o.aggregateId < s.conversations.nextId

structure ChatInv (s : Store) : Prop where
  pointer : PointerInv s
  log : LogInv s
  link : LinkInv s
  command : CommandInv s

-- ============================================================== opening

theorem Opening.get_requests (h : Opening s) : s.requests.get id = none := by
  rw [h.requests]
  exact Table.get_empty id

theorem Opening.inv (h : Opening s) : ChatInv s where
  pointer := by
    refine ⟨fun cid c id hc hp => ?_, ?_, ?_, ?_, ?_⟩
    · simp [h.idle cid c hc] at hp
    · simp [h.get_requests]
    · simp [h.get_requests]
    · simp [h.get_requests]
    · simp [h.get_requests]
  log := by
    refine ⟨by simp [h.get_requests], by simp [h.get_requests], ?_⟩
    simp [h.events, Table.empty]
  link := by
    refine ⟨by simp [h.get_requests], fun mid m id hm hl => ?_⟩
    simp [h.messages mid m hm] at hl
  command := by
    refine ⟨?_, ?_, ?_⟩
    · simp [commandVersions, h.outbox, Table.empty]
    · simp [commandVersions, h.outbox, Table.empty]
    · simp [h.outbox, Table.empty]

-- ========================================================== the pointer

/-- The pointer part reads three columns of the store. -/
theorem PointerInv.congr (h : PointerInv s)
    (hc : s'.conversations = s.conversations) (hr : s'.requests = s.requests)
    (hu : s'.nextUuid = s.nextUuid) : PointerInv s' where
  sound := by
    rw [hc, hr]
    exact h.sound
  complete := by
    rw [hc, hr]
    exact h.complete
  status := by
    rw [hr]
    exact h.status
  unleased := by
    rw [hr]
    exact h.unleased
  tokens := by
    rw [hr, hu]
    exact h.tokens

theorem PointerInv.opened (h : PointerInv s) (ho : Opened s s' c) :
    PointerInv s' where
  sound := by
    intro cid x id hx hp
    rw [ho.conversations] at hx
    rw [ho.requests]
    obtain ⟨-, rfl⟩ | hx := Table.get_insert_cases hx
    · simp [ho.idle] at hp
    · exact h.sound cid x id hx hp
  complete := by
    intro id r hr ha
    rw [ho.requests] at hr
    obtain ⟨x, hx, hp⟩ := h.complete id r hr ha
    rw [ho.conversations]
    exact ⟨x, Table.get_insert_of_some hx _, hp⟩
  status := by
    rw [ho.requests]
    exact h.status
  unleased := by
    rw [ho.requests]
    exact h.unleased
  tokens := by
    rw [ho.requests, ho.uuid]
    exact h.tokens

theorem PointerInv.accepted (h : PointerInv s)
    (ha : Accepted s s' cid mid c c' r m e o) : PointerInv s' where
  sound := by
    intro j x i hx hp
    rw [ha.requests]
    obtain ⟨rfl, rfl⟩ | ⟨-, hx⟩ := ha.conversations.cases hx
    · rw [ha.busy] at hp
      obtain rfl := Option.some.inj hp
      exact ⟨r, Table.get_insert_self _ _, ha.requestConversation,
        ha.requestTenant.trans ha.tenant.symm, by rw [ha.queued]; rfl⟩
    · obtain ⟨y, hy, hrest⟩ := h.sound j x i hx hp
      exact ⟨y, Table.get_insert_of_some hy _, hrest⟩
  complete := by
    intro i y hy hact
    rw [ha.requests] at hy
    obtain ⟨rfl, rfl⟩ | hy := Table.get_insert_cases hy
    · rw [ha.requestConversation]
      exact ⟨c', ha.conversations.new, ha.busy⟩
    · obtain ⟨x, hx, hp⟩ := h.complete i y hy hact
      have hne : y.conversationId ≠ cid := by
        -- the accepting conversation was idle
        rintro rfl
        obtain rfl := Option.some.inj (ha.conversations.old.symm.trans hx)
        simp [ha.idle] at hp
      exact ⟨x, by rw [ha.conversations.other hne, hx], hp⟩
  status := by
    intro i y hy
    rw [ha.requests] at hy
    obtain ⟨-, rfl⟩ | hy := Table.get_insert_cases hy
    · exact Or.inl (by rw [ha.queued]; rfl)
    · exact h.status i y hy
  unleased := by
    intro i y hy hq
    rw [ha.requests] at hy
    obtain ⟨-, rfl⟩ | hy := Table.get_insert_cases hy
    · exact ha.unleased
    · exact h.unleased i y hy hq
  tokens := by
    intro i y t hy ht
    rw [ha.requests] at hy
    rw [ha.uuid]
    obtain ⟨-, rfl⟩ | hy := Table.get_insert_cases hy
    · simp [ha.unleased] at ht
    · have := h.tokens i y t hy ht
      omega

/-- A request that stays active keeps the pointers right. -/
theorem PointerInv.request (h : PointerInv s)
    (hr : Table.Replaced s.requests s'.requests id r r') (hsame : SameRequest r r')
    (hold : r.status.active = true) (hnew : r'.status.active = true)
    (hc : s'.conversations = s.conversations)
    (hun : r'.status = .queued → r'.leaseToken = none)
    (htok : ∀ t, r'.leaseToken = some t → t < s'.nextUuid)
    (hu : s.nextUuid ≤ s'.nextUuid) : PointerInv s' where
  sound := by
    intro j x i hx hp
    rw [hc] at hx
    obtain ⟨y, hy, hconv, hten, hact⟩ := h.sound j x i hx hp
    by_cases hi : i = id
    · subst hi
      obtain rfl := Option.some.inj (hr.old.symm.trans hy)
      exact ⟨r', hr.new, hsame.conversationId.trans hconv,
        hsame.tenantId.trans hten, hnew⟩
    · exact ⟨y, by rw [hr.other hi, hy], hconv, hten, hact⟩
  complete := by
    intro i y hy hact
    rw [hc]
    obtain ⟨rfl, rfl⟩ | ⟨-, hy⟩ := hr.cases hy
    · rw [hsame.conversationId]
      exact h.complete i r hr.old hold
    · exact h.complete i y hy hact
  status := by
    intro i y hy
    obtain ⟨-, rfl⟩ | ⟨-, hy⟩ := hr.cases hy
    · exact Or.inl hnew
    · exact h.status i y hy
  unleased := by
    intro i y hy hq
    obtain ⟨-, rfl⟩ | ⟨-, hy⟩ := hr.cases hy
    · exact hun hq
    · exact h.unleased i y hy hq
  tokens := by
    intro i y t hy ht
    obtain ⟨-, rfl⟩ | ⟨-, hy⟩ := hr.cases hy
    · exact htok t ht
    · have := h.tokens i y t hy ht
      omega

theorem PointerInv.moved (h : PointerInv s) (hm : Moved s s' id r r')
    (hl : LeaseMove who s s' r r') : PointerInv s' := by
  have htokens := h.tokens id r
  refine h.request hm.requests hm.same hm.wasActive hm.isActive hm.conversations
    ?_ ?_ ?_
  · intro hq
    cases hl with
    | claimed hold hnew htok huuid => simp [hnew] at hq
    | requeued hold hnew hmay hown htok huuid => exact htok
    | beat hst hown htok huuid =>
        rw [htok]
        exact h.unleased id r hm.requests.old (hst.symm.trans hq)
    | stopRequested hold hnew htok hlease huuid => simp [hnew] at hq
  · intro t ht
    cases hl with
    | claimed hold hnew htok huuid =>
        rw [htok] at ht
        obtain rfl := Option.some.inj ht
        omega
    | requeued hold hnew hmay hown htok huuid => simp [htok] at ht
    | beat hst hown htok huuid =>
        rw [huuid]
        exact htokens t hm.requests.old (htok.symm.trans ht)
    | stopRequested hold hnew htok hlease huuid =>
        rw [huuid]
        exact htokens t hm.requests.old (htok.symm.trans ht)
  · cases hl with
    | claimed hold hnew htok huuid => omega
    | requeued hold hnew hmay hown htok huuid => omega
    | beat hst hown htok huuid => omega
    | stopRequested hold hnew htok hlease huuid => omega

theorem PointerInv.delta (h : PointerInv s)
    (hd : DeltaWritten who s s' id r r' m m' e text) : PointerInv s' := by
  refine h.request hd.requests hd.same (by rw [hd.running.1]; rfl)
    (by rw [hd.running.2]; rfl) hd.conversations ?_ ?_ (by rw [hd.uuid])
  · intro hq
    simp [hd.running.2] at hq
  · intro t ht
    rw [hd.uuid]
    exact h.tokens id r t hd.requests.old (hd.token.symm.trans ht)

theorem PointerInv.ended (h : PointerInv s)
    (he : Ended who s s' id r r' c c' m m' e) : PointerInv s' where
  sound := by
    intro j x i hx hp
    obtain ⟨rfl, rfl⟩ | ⟨hj, hx⟩ := he.conversations.cases hx
    · simp [he.freed] at hp
    · obtain ⟨y, hy, hconv, hrest⟩ := h.sound j x i hx hp
      have hi : i ≠ id := by
        rintro rfl
        obtain rfl := Option.some.inj (he.requests.old.symm.trans hy)
        exact hj hconv.symm
      exact ⟨y, by rw [he.requests.other hi, hy], hconv, hrest⟩
  complete := by
    intro i y hy hact
    obtain ⟨-, rfl⟩ | ⟨hi, hy⟩ := he.requests.cases hy
    · exact absurd he.isFinal (by simp [RequestStatus.not_final_of_active hact])
    · obtain ⟨x, hx, hp⟩ := h.complete i y hy hact
      have hne : y.conversationId ≠ r.conversationId := by
        -- one pointer cannot name both requests
        intro heq
        rw [heq] at hx
        obtain rfl := Option.some.inj (he.conversations.old.symm.trans hx)
        exact hi (Option.some.inj (hp.symm.trans he.pointed))
      exact ⟨x, by rw [he.conversations.other hne, hx], hp⟩
  status := by
    intro i y hy
    obtain ⟨-, rfl⟩ | ⟨-, hy⟩ := he.requests.cases hy
    · exact Or.inr he.isFinal
    · exact h.status i y hy
  unleased := by
    intro i y hy hq
    obtain ⟨-, rfl⟩ | ⟨-, hy⟩ := he.requests.cases hy
    · exact he.token
    · exact h.unleased i y hy hq
  tokens := by
    intro i y t hy ht
    rw [he.uuid]
    obtain ⟨-, rfl⟩ | ⟨-, hy⟩ := he.requests.cases hy
    · simp [he.token] at ht
    · exact h.tokens i y t hy ht

-- ============================================================== the log

theorem LogInv.congr (h : LogInv s) (hr : s'.requests = s.requests)
    (he : s'.events = s.events) : LogInv s' where
  wellFormed := by
    intro id r hget
    rw [hr] at hget
    rw [log_congr he]
    exact h.wellFormed id r hget
  tenant := by
    intro id r hget
    rw [hr] at hget
    rw [log_congr he]
    exact h.tenant id r hget
  known := by
    rw [he, hr]
    exact h.known

/-- A request nobody has inserted has an empty log. -/
theorem LogInv.fresh (h : LogInv s) : s.log s.requests.nextId = [] := by
  refine List.filter_eq_nil_iff.mpr fun e he => ?_
  have := h.known e he
  simp only [beq_iff_eq]
  omega

theorem LogInv.accepted (h : LogInv s)
    (ha : Accepted s s' cid mid c c' r m e o) : LogInv s' := by
  have hnew : s'.log s.requests.nextId = [e] := by
    rw [log_insert_self ha.events ha.eventRequest, h.fresh]
    rfl
  have hold : ∀ i y, s.requests.get i = some y → s'.log i = s.log i := by
    intro i y hy
    have := Table.lt_nextId hy
    refine log_insert_other ha.events ?_
    rw [ha.eventRequest]
    omega
  refine ⟨fun i y hy => ?_, fun i y hy => ?_, fun x hx => ?_⟩
  · rw [ha.requests] at hy
    obtain ⟨rfl, rfl⟩ | hy := Table.get_insert_cases hy
    · rw [hnew, LogWellFormed, ha.counter, ha.queued]
      refine SeqLog.single ha.eventSequence ?_ ?_ (by simp [RequestStatus.final])
      · rw [ha.eventBody]
        rfl
      · rw [ha.eventBody]
        rfl
    · rw [hold i y hy]
      exact h.wellFormed i y hy
  · rw [ha.requests] at hy
    obtain ⟨rfl, rfl⟩ | hy := Table.get_insert_cases hy
    · rw [hnew]
      simpa using ha.eventTenant
    · rw [hold i y hy]
      exact h.tenant i y hy
  · rw [ha.events, Table.rows_insert, List.mem_append, List.mem_singleton] at hx
    rw [ha.requests, Table.nextId_insert]
    cases hx with
    | inl hx =>
        have := h.known x hx
        omega
    | inr hx =>
        rw [hx, ha.eventRequest]
        omega

theorem LogInv.moved (h : LogInv s) (hm : Moved s s' id r r') : LogInv s' where
  wellFormed := by
    intro i y hy
    rw [log_congr hm.events]
    obtain ⟨rfl, rfl⟩ | ⟨-, hy⟩ := hm.requests.cases hy
    · have hwf := h.wellFormed i r hm.requests.old
      rw [LogWellFormed, hm.counter]
      refine hwf.congr ?_
      simp [RequestStatus.not_final_of_active hm.wasActive,
        RequestStatus.not_final_of_active hm.isActive]
    · exact h.wellFormed i y hy
  tenant := by
    intro i y hy
    rw [log_congr hm.events]
    obtain ⟨rfl, rfl⟩ | ⟨-, hy⟩ := hm.requests.cases hy
    · rw [hm.same.tenantId]
      exact h.tenant i r hm.requests.old
    · exact h.tenant i y hy
  known := by
    rw [hm.events, hm.requests.size]
    exact h.known

/-- One more event of an active request. -/
theorem LogInv.event (h : LogInv s)
    (hr : Table.Replaced s.requests s'.requests id r r') (hsame : SameRequest r r')
    (hold : r.status.active = true)
    (hcounter : r'.lastEventSequence = r.lastEventSequence + 1)
    (hevents : s'.events = s.events.insert e) (heid : e.inferenceRequestId = id)
    (hetenant : e.tenantId = r.tenantId)
    (heseq : e.sequenceNo = r.lastEventSequence + 1)
    (hclose : e.body.terminal = true ↔ r'.status.final = true) : LogInv s' := by
  have hself : s'.log id = s.log id ++ [e] := log_insert_self hevents heid
  have hother : ∀ i, i ≠ id → s'.log i = s.log i := by
    intro i hi
    refine log_insert_other hevents ?_
    rw [heid]
    exact fun h => hi h.symm
  refine ⟨fun i y hy => ?_, fun i y hy => ?_, fun x hx => ?_⟩
  · obtain ⟨rfl, rfl⟩ | ⟨hi, hy⟩ := hr.cases hy
    · rw [hself, LogWellFormed, hcounter]
      refine (h.wellFormed i r hr.old).snoc ?_ heseq hclose
      simp [RequestStatus.not_final_of_active hold]
    · rw [hother i hi]
      exact h.wellFormed i y hy
  · obtain ⟨rfl, rfl⟩ | ⟨hi, hy⟩ := hr.cases hy
    · intro x hx
      rw [hself, List.mem_append, List.mem_singleton] at hx
      rw [hsame.tenantId]
      cases hx with
      | inl hx => exact h.tenant i r hr.old x hx
      | inr hx => rw [hx, hetenant]
    · rw [hother i hi]
      exact h.tenant i y hy
  · rw [hevents, Table.rows_insert, List.mem_append, List.mem_singleton] at hx
    rw [hr.size]
    cases hx with
    | inl hx => exact h.known x hx
    | inr hx =>
        rw [hx, heid]
        exact Table.lt_nextId hr.old

theorem LogInv.delta (h : LogInv s)
    (hd : DeltaWritten who s s' id r r' m m' e text) : LogInv s' := by
  refine h.event hd.requests hd.same (by rw [hd.running.1]; rfl) hd.counter hd.events
    hd.eventRequest hd.eventTenant hd.eventSequence ?_
  rw [hd.eventBody, hd.running.2]
  simp [EventBody.terminal, RequestStatus.final]

theorem LogInv.ended (h : LogInv s)
    (he : Ended who s s' id r r' c c' m m' e) : LogInv s' := by
  refine h.event he.requests he.same he.wasActive he.counter he.events
    he.eventRequest he.eventTenant he.eventSequence ?_
  simp [he.eventTerminal, he.isFinal]

-- ============================================================ the links

theorem LinkInv.congr (h : LinkInv s) (hm : s'.messages = s.messages)
    (hr : s'.requests = s.requests) (he : s'.events = s.events) : LinkInv s' where
  linked := by
    intro id r hget hact
    rw [hr] at hget
    rw [hm, log_congr he]
    exact h.linked id r hget hact
  owner := by
    rw [hm, hr]
    exact h.owner

theorem LinkInv.accepted (h : LinkInv s) (hp : PointerInv s) (hlog : LogInv s)
    (ha : Accepted s s' cid mid c c' r m e o) : LinkInv s' where
  linked := by
    intro i y hy hact
    rw [ha.requests] at hy
    obtain ⟨rfl, rfl⟩ | hy := Table.get_insert_cases hy
    · rw [ha.requestMessage]
      refine ⟨m, ha.message, ha.messageLink, ha.streaming.1, ha.messageOwner.1,
        ha.messageOwner.2.trans ha.requestConversation.symm, ?_⟩
      rw [ha.streaming.2, log_insert_self ha.events ha.eventRequest, hlog.fresh,
        deltas_snoc, ha.eventBody]
      rfl
    · obtain ⟨x, hx, hlink, hst, hten, hconv, htext⟩ := h.linked i y hy hact
      have hne : y.messageId ≠ mid := by
        -- that message is in the idle conversation, `y` is in a busy one
        intro heq
        rw [heq] at hx
        obtain ⟨hcid, -⟩ := ha.messageOld x hx
        obtain ⟨cy, hcy, hpy⟩ := hp.complete i y hy hact
        rw [← hconv, hcid] at hcy
        obtain rfl := Option.some.inj (ha.conversations.old.symm.trans hcy)
        simp [ha.idle] at hpy
      refine ⟨x, ha.messageKept _ x hne hx, hlink, hst, hten, hconv, ?_⟩
      have hlt := Table.lt_nextId hy
      rw [log_insert_other ha.events (by rw [ha.eventRequest]; omega)]
      exact htext
  owner := by
    intro j x i hx hl
    rw [ha.requests]
    by_cases hj : j = mid
    · subst hj
      obtain rfl := Option.some.inj (ha.message.symm.trans hx)
      obtain rfl := Option.some.inj (ha.messageLink.symm.trans hl)
      exact ⟨r, Table.get_insert_self _ _, ha.requestMessage,
        ha.requestConversation.trans ha.messageOwner.2.symm, ha.messageOwner.1.symm⟩
    · cases ha.messageOther j x hj hx with
      | inl hx =>
          obtain ⟨y, hy, hrest⟩ := h.owner j x i hx hl
          exact ⟨y, Table.get_insert_of_some hy _, hrest⟩
      | inr hnone => simp [hnone] at hl

/-- Rewriting a request in place keeps the links to it. -/
theorem LinkInv.owner_replaced (h : LinkInv s)
    (hr : Table.Replaced s.requests s'.requests id r r') (hsame : SameRequest r r')
    {j i : Nat} {x : Message} (hx : s.messages.get j = some x)
    (hl : x.requestId = some i) :
    ∃ y, s'.requests.get i = some y ∧ y.messageId = j
      ∧ y.conversationId = x.conversationId ∧ y.tenantId = x.tenantId := by
  obtain ⟨y, hy, hmid, hconv, hten⟩ := h.owner j x i hx hl
  by_cases hi : i = id
  · subst hi
    obtain rfl := Option.some.inj (hr.old.symm.trans hy)
    exact ⟨r', hr.new, hsame.messageId.trans hmid, hsame.conversationId.trans hconv,
      hsame.tenantId.trans hten⟩
  · exact ⟨y, by rw [hr.other hi, hy], hmid, hconv, hten⟩

theorem LinkInv.moved (h : LinkInv s) (hm : Moved s s' id r r') : LinkInv s' where
  linked := by
    intro i y hy hact
    rw [hm.messages, log_congr hm.events]
    obtain ⟨rfl, rfl⟩ | ⟨-, hy⟩ := hm.requests.cases hy
    · rw [hm.same.messageId, hm.same.tenantId, hm.same.conversationId]
      exact h.linked i r hm.requests.old hm.wasActive
    · exact h.linked i y hy hact
  owner := by
    intro j x i hx hl
    rw [hm.messages] at hx
    exact h.owner_replaced hm.requests hm.same hx hl

/-- The message of another active request is not the one rewritten. -/
theorem LinkInv.message_ne (h : LinkInv s) (hm : s.messages.get mid = some m)
    (hl : m.requestId = some id) {i : Nat} {y : InferenceRequest}
    (hy : s.requests.get i = some y) (hact : y.status.active = true) (hi : i ≠ id) :
    y.messageId ≠ mid := by
  rintro rfl
  obtain ⟨x, hx, hlink, -⟩ := h.linked i y hy hact
  obtain rfl := Option.some.inj (hm.symm.trans hx)
  exact hi (Option.some.inj (hlink.symm.trans hl))

theorem LinkInv.delta (h : LinkInv s)
    (hd : DeltaWritten who s s' id r r' m m' e text) : LinkInv s' := by
  have hrun : r.status.active = true := by rw [hd.running.1]; rfl
  refine ⟨fun i y hy hact => ?_, fun j x i hx hl => ?_⟩
  · obtain ⟨rfl, rfl⟩ | ⟨hi, hy⟩ := hd.requests.cases hy
    · obtain ⟨x, hx, hlink, hst, hten, hconv, htext⟩ :=
        h.linked i r hd.requests.old hrun
      obtain rfl := Option.some.inj (hd.messages.old.symm.trans hx)
      refine ⟨m', by rw [hd.same.messageId]; exact hd.messages.new, ?_⟩
      obtain ⟨hreq, hmten, hmconv⟩ := hd.messageSame
      rw [hreq, hmten, hmconv, hd.content.1, hd.content.2, hd.same.tenantId,
        hd.same.conversationId, log_insert_self hd.events hd.eventRequest,
        deltas_snoc, hd.eventBody]
      exact ⟨hlink, hst, hten, hconv, by rw [htext]; rfl⟩
    · obtain ⟨x, hx, hlink, hst, hten, hconv, htext⟩ := h.linked i y hy hact
      have hne := h.message_ne hd.messages.old hd.link hy hact hi
      refine ⟨x, by rw [hd.messages.other hne, hx], hlink, hst, hten, hconv, ?_⟩
      rw [log_insert_other hd.events (by rw [hd.eventRequest]; exact fun h => hi h.symm)]
      exact htext
  · obtain ⟨rfl, rfl⟩ | ⟨-, hx⟩ := hd.messages.cases hx
    · obtain ⟨hreq, hten, hconv⟩ := hd.messageSame
      rw [hreq] at hl
      rw [hten, hconv]
      exact h.owner_replaced hd.requests hd.same hd.messages.old hl
    · exact h.owner_replaced hd.requests hd.same hx hl

theorem LinkInv.ended (h : LinkInv s)
    (he : Ended who s s' id r r' c c' m m' e) : LinkInv s' where
  linked := by
    intro i y hy hact
    obtain ⟨-, rfl⟩ | ⟨hi, hy⟩ := he.requests.cases hy
    · exact absurd he.isFinal (by simp [RequestStatus.not_final_of_active hact])
    · obtain ⟨x, hx, hlink, hst, hten, hconv, htext⟩ := h.linked i y hy hact
      have hne := h.message_ne he.messages.old he.link hy hact hi
      refine ⟨x, by rw [he.messages.other hne, hx], hlink, hst, hten, hconv, ?_⟩
      rw [log_insert_other he.events (by rw [he.eventRequest]; exact fun h => hi h.symm)]
      exact htext
  owner := by
    intro j x i hx hl
    obtain ⟨rfl, rfl⟩ | ⟨-, hx⟩ := he.messages.cases hx
    · obtain ⟨hreq, hten, hconv⟩ := he.messageSame
      rw [hreq] at hl
      rw [hten, hconv]
      exact h.owner_replaced he.requests he.same he.messages.old hl
    · exact h.owner_replaced he.requests he.same hx hl

-- ========================================================= the commands

/-- The command part survives a step that writes no command and lowers
no version. -/
theorem CommandInv.mono (h : CommandInv s) (ho : s'.outbox = s.outbox)
    (hc : ∀ cid c, s'.conversations.get cid = some c →
      (∃ c₀, s.conversations.get cid = some c₀ ∧ c₀.version ≤ c.version)
        ∨ s.conversations.nextId ≤ cid)
    (hsize : s.conversations.nextId ≤ s'.conversations.nextId) : CommandInv s' := by
  have hversions : ∀ cid, commandVersions s' cid = commandVersions s cid := by
    intro cid
    unfold commandVersions
    rw [ho]
  refine ⟨fun cid => ?_, fun cid c hget v hv => ?_, fun o hmem => ?_⟩
  · rw [hversions]
    exact h.increasing cid
  · rw [hversions] at hv
    cases hc cid c hget with
    | inl hold =>
        obtain ⟨c₀, hget₀, hle⟩ := hold
        exact le_trans (h.bounded cid c₀ hget₀ v hv) hle
    | inr hfresh =>
        -- no command names a conversation that did not exist
        obtain ⟨o, ho, -⟩ := List.mem_map.mp hv
        obtain ⟨hmem, hagg⟩ := List.mem_filter.mp ho
        have := h.known o hmem
        simp only [beq_iff_eq] at hagg
        omega
  · rw [ho] at hmem
    have := h.known o hmem
    omega

theorem CommandInv.opened (h : CommandInv s) (ho : Opened s s' c) :
    CommandInv s' := by
  refine h.mono ho.outbox (fun cid x hx => ?_) (by rw [ho.conversations]; simp)
  rw [ho.conversations] at hx
  obtain ⟨rfl, -⟩ | hx := Table.get_insert_cases hx
  · exact Or.inr (le_refl _)
  · exact Or.inl ⟨x, hx, le_refl _⟩

theorem CommandInv.accepted (h : CommandInv s)
    (ha : Accepted s s' cid mid c c' r m e o) : CommandInv s' := by
  obtain ⟨hagg, hver⟩ := ha.command
  have hself : commandVersions s' cid = commandVersions s cid ++ [c'.version] := by
    unfold commandVersions
    rw [ha.outbox, Table.rows_insert, List.filter_append, List.map_append]
    simp [hagg, hver]
  have hother : ∀ j, j ≠ cid → commandVersions s' j = commandVersions s j := by
    intro j hj
    unfold commandVersions
    rw [ha.outbox, Table.rows_insert, List.filter_append, List.map_append]
    simp [hagg, hj.symm]
  have hbound := h.bounded cid c ha.conversations.old
  refine ⟨fun j => ?_, fun j x hx v hv => ?_, fun x hx => ?_⟩
  · by_cases hj : j = cid
    · subst hj
      rw [hself, List.pairwise_append]
      refine ⟨h.increasing j, List.pairwise_singleton _ _, fun v hv w hw => ?_⟩
      rw [List.mem_singleton] at hw
      have := hbound v hv
      have := ha.version
      omega
    · rw [hother j hj]
      exact h.increasing j
  · obtain ⟨rfl, rfl⟩ | ⟨hj, hx⟩ := ha.conversations.cases hx
    · rw [hself, List.mem_append, List.mem_singleton] at hv
      have := ha.version
      cases hv with
      | inl hv =>
          have := hbound v hv
          omega
      | inr hv => omega
    · rw [hother j hj] at hv
      exact h.bounded j x hx v hv
  · rw [ha.outbox, Table.rows_insert, List.mem_append, List.mem_singleton] at hx
    rw [ha.conversations.size]
    cases hx with
    | inl hx => exact h.known x hx
    | inr hx =>
        rw [hx, hagg]
        exact Table.lt_nextId ha.conversations.old

theorem CommandInv.ended (h : CommandInv s)
    (he : Ended who s s' id r r' c c' m m' e) : CommandInv s' := by
  refine h.mono he.outbox (fun j x hx => ?_) (by rw [he.conversations.size])
  obtain ⟨rfl, rfl⟩ | ⟨-, hx⟩ := he.conversations.cases hx
  · exact Or.inl ⟨c, he.conversations.old, by rw [he.version]; omega⟩
  · exact Or.inl ⟨x, hx, le_refl _⟩

theorem CommandInv.congr (h : CommandInv s) (ho : s'.outbox = s.outbox)
    (hc : s'.conversations = s.conversations) : CommandInv s' := by
  refine h.mono ho (fun cid x hx => ?_) (by rw [hc])
  rw [hc] at hx
  exact Or.inl ⟨x, hx, le_refl _⟩

-- ========================================================== all of them

/-- One effect keeps the invariant. -/
theorem ChatInv.effect (h : ChatInv s) (heff : Effect who s s') : ChatInv s' := by
  cases heff with
  | quiet hq =>
      exact ⟨h.pointer.congr hq.conversations hq.requests hq.uuid,
        h.log.congr hq.requests hq.events,
        h.link.congr hq.messages hq.requests hq.events,
        h.command.congr hq.outbox hq.conversations⟩
  | opened c ho =>
      exact ⟨h.pointer.opened ho, h.log.congr ho.requests ho.events,
        h.link.congr ho.messages ho.requests ho.events, h.command.opened ho⟩
  | accepted cid mid c c' r m e o ha =>
      exact ⟨h.pointer.accepted ha, h.log.accepted ha,
        h.link.accepted h.pointer h.log ha, h.command.accepted ha⟩
  | moved id r r' hm hmove =>
      exact ⟨h.pointer.moved hm hmove, h.log.moved hm, h.link.moved hm,
        h.command.congr hm.outbox hm.conversations⟩
  | delta id r r' m m' e text hd =>
      exact ⟨h.pointer.delta hd, h.log.delta hd, h.link.delta hd,
        h.command.congr hd.outbox hd.conversations⟩
  | ended id r r' c c' m m' e he =>
      exact ⟨h.pointer.ended he, h.log.ended he, h.link.ended he,
        h.command.ended he⟩

end Mosaic.Chat
