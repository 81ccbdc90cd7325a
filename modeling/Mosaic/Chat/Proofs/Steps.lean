/-
Every operation is an effect.

One inversion lemma per operation of the two repositories, and
`step_effects`, which collects them: under the invariant a step is one
`Effect`, except `reconcile_expired_once`, which ends one request after
the other. The invariant enters where a guard of the code names a row
through the execution record (the message and conversation found must be
the request's own) and in `stop`, whose next sequence number is read off
the log.
-/
import Mosaic.Chat.Proofs.Invariant
import Mathlib

namespace Mosaic.Chat

open Lib Providers

variable {who : Caller} {s s' : Store} {id cid mid : Nat}
  {r : InferenceRequest} {c : Conversation} {m : Message} {e : Execution}

-- ============================================================= the locks

theorem lockedRequest_some (h : lockedRequest s e = some r) :
    s.requests.get e.requestDbId = some r ∧ e.leaseToken.isSome = true
      ∧ r.leaseToken = e.leaseToken := by
  rw [lockedRequest, Option.filter_eq_some_iff] at h
  obtain ⟨hget, hp⟩ := h
  simp only [Bool.and_eq_true, beq_iff_eq] at hp
  exact ⟨hget, hp.1.2, hp.2⟩

/-- What a fenced write has checked on the request row. -/
structure Writable (s : Store) (lockedNow : Nat) (e : Execution)
    (expectedSequence : Int) (statuses : List RequestStatus)
    (r : InferenceRequest) : Prop where
  get : s.requests.get e.requestDbId = some r
  own : e.leaseToken.isSome = true ∧ r.leaseToken = e.leaseToken
  status : statuses.contains r.status = true
  counter : expectedSequence = r.lastEventSequence + 1
  lease : ∃ t, r.leaseExpiresAt = some t ∧ lockedNow < t
  coherent : ∃ p, providerIdIsCoherent r p = true

theorem writable_of_filter {lockedNow : Nat} {seq : Int}
    {statuses : List RequestStatus} {p : Option String}
    (h : (lockedWritableRequest s lockedNow e seq statuses).filter
      (fun r => providerIdIsCoherent r p) = some r) :
    Writable s lockedNow e seq statuses r := by
  rw [Option.filter_eq_some_iff, lockedWritableRequest,
    Option.filter_eq_some_iff] at h
  obtain ⟨⟨hlock, hp⟩, hcoh⟩ := h
  obtain ⟨hget, hsome, htok⟩ := lockedRequest_some hlock
  simp only [Bool.and_eq_true, beq_iff_eq] at hp
  obtain ⟨⟨hst, hseq⟩, hlease⟩ := hp
  refine ⟨hget, ⟨hsome, htok⟩, hst, by omega, ?_, ⟨p, hcoh⟩⟩
  simpa [Option.any_eq_true] using hlease

theorem lockedMessage_some (h : lockedMessage s e = some m) :
    s.messages.get e.messageId = some m ∧ m.requestId = some e.requestDbId := by
  rw [lockedMessage, Option.filter_eq_some_iff] at h
  obtain ⟨hget, hp⟩ := h
  simp only [Bool.and_eq_true, beq_iff_eq] at hp
  exact ⟨hget, hp.2⟩

theorem lockedConversation_some (h : lockedConversation s e = some c) :
    s.conversations.get e.conversationId = some c
      ∧ c.activeInferenceRequestId = some e.requestDbId := by
  rw [lockedConversation, Option.filter_eq_some_iff] at h
  obtain ⟨hget, hp⟩ := h
  simp only [Bool.and_eq_true, beq_iff_eq] at hp
  exact ⟨hget, hp.2⟩

/-- The message an execution record locks is its request's own. -/
theorem ChatInv.message_eq (h : ChatInv s)
    (hr : s.requests.get e.requestDbId = some r) (hm : lockedMessage s e = some m) :
    e.messageId = r.messageId := by
  obtain ⟨hget, hlink⟩ := lockedMessage_some hm
  obtain ⟨y, hy, hmid, -⟩ := h.link.owner _ m _ hget hlink
  obtain rfl := Option.some.inj (hr.symm.trans hy)
  exact hmid.symm

/-- And so is the conversation of that message. -/
theorem ChatInv.messageConversation_eq (h : ChatInv s)
    (hr : s.requests.get e.requestDbId = some r) (hm : lockedMessage s e = some m) :
    e.conversationId = r.conversationId := by
  obtain ⟨hget, hlink⟩ := lockedMessage_some hm
  obtain ⟨y, hy, -, hcid, -⟩ := h.link.owner _ m _ hget hlink
  obtain rfl := Option.some.inj (hr.symm.trans hy)
  rw [lockedMessage, Option.filter_eq_some_iff] at hm
  obtain ⟨-, hp⟩ := hm
  simp only [Bool.and_eq_true, beq_iff_eq] at hp
  exact hp.1.2.symm.trans hcid.symm

/-- The conversation it locks is its request's own. -/
theorem ChatInv.conversation_eq (h : ChatInv s)
    (hr : s.requests.get e.requestDbId = some r)
    (hc : lockedConversation s e = some c) : e.conversationId = r.conversationId := by
  obtain ⟨hget, hp⟩ := lockedConversation_some hc
  obtain ⟨y, hy, hconv, -⟩ := h.pointer.sound _ c _ hget hp
  obtain rfl := Option.some.inj (hr.symm.trans hy)
  exact hconv.symm

-- ==================================================== lease moves of e

theorem claimCandidate_some {catalog : Catalog.CatalogRows} {locked : Nat → Bool}
    {tenantId requestId : Option Nat}
    (h : claimCandidate s catalog locked tenantId requestId = some (id, r)) :
    s.requests.get id = some r ∧ r.status = .queued := by
  have hmem := List.mem_of_mem_head? h
  obtain ⟨hget, hp⟩ := Table.mem_ordered.mp hmem
  refine ⟨hget, ?_⟩
  simp only [Bool.and_eq_true] at hp
  by_contra hne
  have hnone : claimRow s catalog tenantId requestId r = none :=
    if_neg fun hc => hne hc.1
  simp [hnone] at hp

theorem claimQueued_effect {now : Nat} {catalog : Catalog.CatalogRows}
    {locked : Nat → Bool} {workerId : String} {leaseSeconds : Nat}
    {tenantId requestId : Option Nat} {x : Option Execution × Store}
    (h : claimQueued now catalog locked workerId leaseSeconds tenantId requestId s
      = .ok x) : Effect ⟨none, [], false, false⟩ s x.2 := by
  simp only [claimQueued, bind_eq_ok] at h
  obtain ⟨-, -, -, -, h⟩ := h
  split at h
  · rw [pure_eq_ok] at h
    subst h
    exact Effect.refl s
  · next id r hcand =>
      obtain ⟨hget, hq⟩ := claimCandidate_some hcand
      split at h
      · rw [pure_eq_ok] at h
        subst h
        exact Effect.refl s
      · rw [pure_eq_ok] at h
        subst h
        refine Effect.moved id r _
          { requests := Table.replaced_modify hget _, same := ?_, counter := rfl
            provider := rfl, wasActive := ?_, isActive := rfl, conversations := rfl
            messages := rfl, events := rfl, outbox := rfl, billing := rfl }
          (LeaseMove.claimed hq rfl rfl rfl)
        · exact ⟨rfl, rfl, rfl, rfl, rfl, rfl, rfl⟩
        · rw [hq]
          rfl

theorem requeueClaimed_effect (now : Nat) (e : Execution) (s : Store) :
    Effect ⟨e.leaseToken, [], true, false⟩ s (requeueClaimed now e s).2 := by
  unfold requeueClaimed
  split
  · exact Effect.refl s
  · next r hlock =>
      obtain ⟨hlock, hst⟩ := Option.filter_eq_some_iff.mp hlock
      obtain ⟨hget, hsome, htok⟩ := lockedRequest_some hlock
      have hrun : r.status = .running := by simpa using hst
      refine Effect.moved e.requestDbId r _
        { requests := Table.replaced_modify hget _, same := ?_, counter := rfl
          provider := rfl, wasActive := ?_, isActive := rfl, conversations := rfl
          messages := rfl, events := rfl, outbox := rfl, billing := rfl }
        (LeaseMove.requeued hrun rfl rfl ⟨hsome, htok⟩ rfl rfl)
      · exact ⟨rfl, rfl, rfl, rfl, rfl, rfl, rfl⟩
      · rw [hrun]
        rfl

theorem checkLeaseAndStop_effect (ext now : Nat) (e : Execution) (s : Store) :
    Effect ⟨e.leaseToken, [], false, false⟩ s (checkLeaseAndStop ext now e s).2 := by
  unfold checkLeaseAndStop
  split
  · exact Effect.refl s
  · next r hlock =>
      obtain ⟨hlock, hp⟩ := Option.filter_eq_some_iff.mp hlock
      obtain ⟨hget, hsome, htok⟩ := lockedRequest_some hlock
      simp only [Bool.and_eq_true] at hp
      have hact := active_of_running hp.1
      exact Effect.moved e.requestDbId r _
        { requests := Table.replaced_modify hget _
          same := ⟨rfl, rfl, rfl, rfl, rfl, rfl, rfl⟩, counter := rfl
          provider := rfl, wasActive := hact, isActive := hact, conversations := rfl
          messages := rfl, events := rfl, outbox := rfl, billing := rfl }
        (LeaseMove.beat rfl ⟨hsome, htok⟩ rfl rfl)

-- ===================================================== stream and ending

theorem appendDelta_effect {ext now lockedNow : Nat} {seq : Int} {delta : String}
    {provider : Option String} {x : Option Int × Store} (hinv : ChatInv s)
    (h : appendDelta ext now lockedNow e seq delta provider s = .ok x) :
    Effect ⟨e.leaseToken, [], false, false⟩ s x.2 := by
  simp only [appendDelta, bind_eq_ok] at h
  obtain ⟨-, -, h⟩ := h
  split at h
  · rw [pure_eq_ok] at h
    subst h
    exact Effect.refl s
  · next r hfilter =>
      have hw := writable_of_filter hfilter
      split at h
      · rw [pure_eq_ok] at h
        subst h
        exact Effect.refl s
      · next m hmsg =>
          obtain ⟨hlocked, -⟩ := Option.filter_eq_some_iff.mp hmsg
          obtain ⟨hmget, hlink⟩ := lockedMessage_some hlocked
          have hmid := hinv.message_eq hw.get hlocked
          have hcid := hinv.messageConversation_eq hw.get hlocked
          have hrun : r.status = .running := by simpa using hw.status
          simp only [bind_eq_ok, pure_eq_ok] at h
          obtain ⟨-, -, rfl⟩ := h
          exact Effect.delta e.requestDbId r _ m
            { m with content := m.content ++ delta, updatedAt := now } _ delta
            { requests := Table.replaced_modify hw.get _
              same := ⟨rfl, rfl, rfl, rfl, rfl, rfl, rfl⟩, own := hw.own
              running := ⟨hrun, hrun⟩, token := rfl, counter := hw.counter
              messages := hmid ▸ Table.replaced_modify hmget _, link := hlink
              messageSame := ⟨rfl, rfl, rfl⟩, messagePlace := ⟨rfl, rfl⟩
              content := ⟨rfl, rfl⟩
              events := rfl, eventRequest := rfl, eventTenant := rfl
              eventSequence := hw.counter, eventBody := rfl
              eventNames := ⟨rfl, hcid, hmid, (fun _ h => by cases h), fun h => by cases h⟩
              conversations := rfl, outbox := rfl, billing := rfl, uuid := rfl }

/-- The rows a terminal write of the worker leaves behind end the
request, whatever it records in the columns the log does not read. -/
theorem ended_of_writable {now lockedNow : Nat} {seq : Int}
    {statuses : List RequestStatus} {fr : InferenceRequest → InferenceRequest}
    {fm : Message → Message} {body : EventBody} (hinv : ChatInv s)
    (hw : Writable s lockedNow e seq statuses r)
    (hm : lockedMessage s e = some m) (hc : lockedConversation s e = some c)
    (hstatuses : r.status.active = true) (hsame : SameRequest r (fr r))
    (hfinal : (fr r).status.final = true) (htoken : (fr r).leaseToken = none)
    (hheeded : r.status = .stopRequested →
      (fr r).status = .stopped ∨ (fr r).status = .failed)
    {outcomes : List RequestStatus} (hout : outcomes.contains (fr r).status = true)
    (hcounter : (fr r).lastEventSequence = seq)
    (hmsame : (fm m).requestId = m.requestId ∧ (fm m).tenantId = m.tenantId
      ∧ (fm m).conversationId = m.conversationId)
    (hplace : (fm m).role = m.role ∧ (fm m).sequenceNo = m.sequenceNo)
    (hbody : body.terminal = true)
    (hcompleted : ∀ content, body = .completed content → (fr r).status = .succeeded)
    (hnames : ∀ err, body = .failed err → err.requestId = r.requestId)
    (hreq : s'.requests = s.requests.modify e.requestDbId fr)
    (hmsg : s'.messages = s.messages.modify e.messageId fm)
    (hconv : s'.conversations = clearActive now s.conversations e.conversationId)
    (hev : s'.events = s.events.insert (executionEvent now e r seq body))
    (houtbox : s'.outbox = s.outbox) (huuid : s'.nextUuid = s.nextUuid)
    (hbilling : s'.billing = s.billing
      ∨ ((fr r).status = .succeeded ∧ Recorded s s' e.requestDbId)) :
    Effect ⟨e.leaseToken, outcomes, false, false⟩ s s' := by
  obtain ⟨hmget, hlink⟩ := lockedMessage_some hm
  obtain ⟨hcget, hpointed⟩ := lockedConversation_some hc
  have hmid := hinv.message_eq hw.get hm
  have hcid := hinv.conversation_eq hw.get hc
  refine Effect.ended e.requestDbId r (fr r) c
    { c with activeInferenceRequestId := none, version := c.version + 1
             updatedAt := now } m (fm m) _
    { requests := hreq ▸ Table.replaced_modify hw.get _, same := hsame
      own := Or.inr hw.own.2, wasActive := hstatuses, isFinal := hfinal
      heeded := hheeded, outcome := hout, token := htoken, counter := hcounter.trans hw.counter
      conversations := ?_, pointed := hpointed, freed := rfl, version := rfl
      tenant := rfl, creator := rfl, messages := ?_, link := hlink
      messageSame := hmsame, messagePlace := hplace, events := hev, eventRequest := rfl, eventTenant := rfl
      eventSequence := hw.counter, eventTerminal := hbody
      eventNames := ⟨rfl, hcid, hmid, hnames, fun h => by
        rw [show body = .started from h] at hbody; cases hbody⟩
      eventCompleted := hcompleted, outbox := houtbox, billing := hbilling
      uuid := huuid }
  · rw [hconv, ← hcid]
    exact Table.replaced_modify hcget _
  · rw [hmsg, ← hmid]
    exact Table.replaced_modify hmget _

theorem terminalWithoutUsage_effect {now lockedNow : Nat} {seq : Int} {t : Terminal}
    {x : Bool × Store} (hinv : ChatInv s)
    (hstatuses : ∀ st, t.statuses.contains st = true → st.active = true)
    (hfinal : t.requestStatus.final = true)
    (hheeded : t.statuses.contains .stopRequested = true →
      t.requestStatus = .stopped ∨ t.requestStatus = .failed)
    (h : terminalWithoutUsage now lockedNow e seq t s = .ok x) :
    Effect ⟨e.leaseToken, [t.requestStatus], false, false⟩ s x.2 := by
  unfold terminalWithoutUsage at h
  split at h
  · rw [pure_eq_ok] at h
    subst h
    exact Effect.refl s
  · next r hfilter =>
      have hw := writable_of_filter hfilter
      split at h
      · next m c hm hc =>
          simp only [bind_eq_ok, pure_eq_ok] at h
          obtain ⟨-, -, rfl⟩ := h
          refine ended_of_writable hinv hw hm hc (hstatuses _ hw.status)
            ⟨rfl, rfl, rfl, rfl, rfl, rfl, rfl⟩ hfinal rfl
            (fun hst => hheeded (hst ▸ hw.status)) (by simp) rfl ⟨rfl, rfl, rfl⟩
            ⟨rfl, rfl⟩ ?_ ?_ ?_ rfl rfl rfl rfl rfl rfl (Or.inl rfl)
          · unfold Terminal.body
            split
            · rfl
            · rfl
          · intro content hbody
            unfold Terminal.body at hbody
            split at hbody
            · cases hbody
            · cases hbody
          · intro err hbody
            unfold Terminal.body at hbody
            split at hbody
            · cases hbody
            · cases hbody
              rfl
      · rw [pure_eq_ok] at h
        subst h
        exact Effect.refl s

theorem active_of_contains_running {st : RequestStatus}
    (h : [RequestStatus.running].contains st = true) : st.active = true := by
  have : st = .running := by simpa using h
  rw [this]
  rfl

theorem recordUsage_recorded {provider : Option String} {price : Billing.PriceSnapshot}
    {usage : TokenUsage} {charge : Billing.Money} {t : Table Billing.UsageRecord}
    (h : recordUsage s.billing.usageRecords e provider price usage charge = .ok t)
    {requests : Table InferenceRequest} {messages : Table Message}
    {events : Table StreamEvent} {conversations : Table Conversation} :
    Recorded s { s with requests, messages, events, conversations
                        billing := { s.billing with usageRecords := t } }
      e.requestDbId := by
  unfold recordUsage at h
  split at h
  · rw [pure_eq_ok] at h
    subst h
    exact Or.inl rfl
  · simp only [bind_eq_ok, pure_eq_ok] at h
    obtain ⟨label, -, rfl⟩ := h
    exact Or.inr ⟨_, rfl, rfl⟩

theorem markCompleted_effect {book : Catalog.PriceBook} {now lockedNow : Nat}
    {seq : Int} {content : String} {provider : Option String} {usage : TokenUsage}
    {x : Bool × Store} (hinv : ChatInv s)
    (h : markCompleted book now lockedNow e seq content provider usage s = .ok x) :
    Effect ⟨e.leaseToken, [.succeeded], false, false⟩ s x.2 := by
  unfold markCompleted at h
  split at h
  · rw [pure_eq_ok] at h
    subst h
    exact Effect.refl s
  · next r hfilter =>
      have hw := writable_of_filter hfilter
      split at h
      · next m c hm hc =>
          simp only [bind_eq_ok, pure_eq_ok] at h
          obtain ⟨price, -, charge, -, -, -, usageRecords, hrecord, rfl⟩ := h
          have hrun : r.status = .running := by simpa using hw.status
          exact ended_of_writable hinv hw hm hc (active_of_contains_running hw.status)
            ⟨rfl, rfl, rfl, rfl, rfl, rfl, rfl⟩ rfl rfl
            (fun hst => by rw [hrun] at hst; cases hst) rfl rfl ⟨rfl, rfl, rfl⟩
            ⟨rfl, rfl⟩ rfl
            (fun _ _ => rfl) (fun _ h => by cases h) rfl rfl rfl rfl rfl rfl
            (Or.inr ⟨rfl, recordUsage_recorded hrecord⟩)
      · rw [pure_eq_ok] at h
        subst h
        exact Effect.refl s

-- ================================================================= stop

/-- Read back from the start, the log is what was written. -/
theorem ChatInv.eventsAfter_eq (h : ChatInv s) (hr : s.requests.get id = some r) :
    eventsAfter s r.tenantId id (-1) = s.log id := by
  have hwf := h.log.wellFormed id r hr
  have hall : (s.log id).filter
      (fun e => e.tenantId == r.tenantId && decide (-1 < e.sequenceNo)) = s.log id := by
    refine List.filter_eq_self.mpr fun e he => ?_
    obtain ⟨i, hi⟩ := List.getElem?_of_mem he
    have hseq : e.sequenceNo = i := hwf.seq_eq hi
    simp only [h.log.tenant id r hr e he, beq_self_eq_true, Bool.true_and,
      decide_eq_true_eq]
    omega
  rw [eventsAfter, hall]
  exact hwf.sorted.insertionSort_eq

/-- A stop closes an open log with the next number. -/
theorem ChatInv.appendStoppedEvent_eq (h : ChatInv s)
    (hr : s.requests.get id = some r) (hact : r.status.active = true) (now : Nat)
    (messages : Table Message) :
    appendStoppedEvent now { s with messages } id r
      = ({ s with
            messages
            events := s.events.insert
              { tenantId := r.tenantId, inferenceRequestId := id
                sequenceNo := r.lastEventSequence + 1, body := .stopped
                requestId := r.requestId, conversationId := r.conversationId
                messageId := r.messageId, createdAt := now } },
          r.lastEventSequence + 1) := by
  have hwf := h.log.wellFormed id r hr
  have hlog : eventsAfter { s with messages } r.tenantId id (-1) = s.log id :=
    h.eventsAfter_eq hr
  have hopen : (s.log id).any (fun e => e.body.terminal) = false := by
    rw [Bool.eq_false_iff]
    intro hany
    rw [List.any_eq_true] at hany
    simpa [RequestStatus.not_final_of_active hact] using hwf.closed_iff.mp hany
  obtain ⟨last, hlast, hseq⟩ := hwf.getLast_seq
  simp only [appendStoppedEvent, hlog, hopen, hlast, hseq, Bool.false_eq_true,
    if_false]

theorem clearActiveOnRow_ok {now : Nat}
    (h : clearActiveOnRow now s cid id = .ok s') :
    ∃ c, s.conversations.get cid = some c ∧ c.activeInferenceRequestId = some id
      ∧ s' = { s with conversations := s.conversations.modify cid fun row =>
          { row with activeInferenceRequestId := none, version := c.version + 1
                     updatedAt := now } } := by
  simp only [clearActiveOnRow, bind_eq_ok, orRaise_eq_ok, pure_eq_ok,
    Option.filter_eq_some_iff] at h
  obtain ⟨c, ⟨hget, hp⟩, rfl⟩ := h
  exact ⟨c, hget, by simpa using hp, rfl⟩

theorem stopQueued_effect {now : Nat} {x : Int × Store} (hinv : ChatInv s)
    (hr : s.requests.get id = some r) (hq : r.status = .queued)
    (h : stopQueued now s r.conversationId id r = .ok x) :
    Effect ⟨none, [.stopped], false, false⟩ s x.2 := by
  have hact : r.status.active = true := by rw [hq]; rfl
  obtain ⟨m, hm, hlink, hst, hten, hconv, -⟩ := hinv.link.linked id r hr hact
  have hmfr : messageForRequest s r.tenantId r = some m := by
    rw [messageForRequest, Option.filter_eq_some_iff]
    exact ⟨hm, by simp [hten, hconv]⟩
  simp only [stopQueued, hmfr, hst, if_true, hinv.appendStoppedEvent_eq hr hact,
    bind_eq_ok, pure_eq_ok] at h
  obtain ⟨s₁, hclear, rfl⟩ := h
  obtain ⟨c, hc, hpointed, rfl⟩ := clearActiveOnRow_ok hclear
  exact Effect.ended id r
    { r with status := .stopped, completedAt := some now, updatedAt := now
             lastEventSequence := r.lastEventSequence + 1 } c
    { c with activeInferenceRequestId := none, version := c.version + 1
             updatedAt := now } m
    { m with status := .stopped, updatedAt := now } _
    { requests := Table.replaced_modify hr _
      same := ⟨rfl, rfl, rfl, rfl, rfl, rfl, rfl⟩, own := Or.inl rfl, wasActive := hact, isFinal := rfl
      heeded := fun _ => Or.inl rfl, outcome := rfl
      token := hinv.pointer.unleased id r hr hq, counter := rfl
      conversations := Table.replaced_modify hc _, pointed := hpointed, freed := rfl
      version := rfl, tenant := rfl, creator := rfl
      messages := Table.replaced_modify hm _, link := hlink
      messageSame := ⟨rfl, rfl, rfl⟩, messagePlace := ⟨rfl, rfl⟩, events := rfl
      eventRequest := rfl, eventTenant := rfl, eventSequence := rfl
      eventTerminal := rfl
      eventNames := ⟨rfl, rfl, rfl, (fun _ h => by cases h), fun h => by cases h⟩
      eventCompleted := (fun _ h => by cases h), outbox := rfl
      billing := Or.inl rfl, uuid := rfl }

/-- A request the pointer of its conversation names is active. -/
theorem ChatInv.active_of_pointed (h : ChatInv s)
    (hc : s.conversations.get cid = some c)
    (hp : c.activeInferenceRequestId = some id) (hr : s.requests.get id = some r) :
    r.status.active = true := by
  obtain ⟨y, hy, -, -, hact⟩ := h.pointer.sound cid c id hc hp
  obtain rfl := Option.some.inj (hr.symm.trans hy)
  exact hact

theorem stop_effect {now tenantId actorUserId conversationId requestId : Nat}
    {x : StopResult × Store} (hinv : ChatInv s)
    (h : stop now tenantId actorUserId conversationId requestId s = .ok x) :
    Effect ⟨none, [.stopped], false, false⟩ s x.2 := by
  simp only [stop, bind_eq_ok, orRaise_eq_ok] at h
  obtain ⟨c, hc, ⟨id, r⟩, hfind, h⟩ := h
  obtain ⟨hcget, -⟩ := Option.filter_eq_some_iff.mp hc
  obtain ⟨hr, hmatch⟩ := Table.find_some hfind
  simp only [Bool.and_eq_true, beq_iff_eq] at hmatch
  have hcid : r.conversationId = conversationId := hmatch.1.2
  split at h
  · next hterminal =>
      -- the pointer of a conversation never names a finished request
      have hnot : c.activeInferenceRequestId ≠ some id := by
        intro hp
        have hact := hinv.active_of_pointed hcget hp hr
        cases hst : r.status <;> simp_all [RequestStatus.active, terminalRequestStatus]
      simp only [if_neg hnot, bind_eq_ok, pure_eq_ok] at h
      obtain ⟨s₁, rfl, rfl⟩ := h
      exact Effect.refl s
  · simp only [bind_eq_ok, raiseIf_eq_ok, not_not] at h
    obtain ⟨-, hp, h⟩ := h
    have hact := hinv.active_of_pointed hcget hp hr
    split at h
    · next hq =>
        simp only [bind_eq_ok, pure_eq_ok] at h
        obtain ⟨y, hy, rfl⟩ := h
        rw [← hcid] at hy
        exact stopQueued_effect hinv hr hq hy
    · next hq =>
        rw [pure_eq_ok] at h
        subst h
        refine Effect.moved id r
          { r with status := .stopRequested, cancelRequestedAt := some now
                   updatedAt := now }
          { requests := Table.replaced_modify hr _
            same := ⟨rfl, rfl, rfl, rfl, rfl, rfl, rfl⟩, counter := rfl, provider := rfl
            wasActive := hact, isActive := rfl, conversations := rfl
            messages := rfl, events := rfl, outbox := rfl, billing := rfl }
          (LeaseMove.stopRequested ?_ rfl rfl rfl rfl)
        cases hst : r.status <;> simp_all [RequestStatus.active]

-- ============================================================ reconcile

/-- The sweep of `reconcile_expired_once` as a caller. -/
def sweeper : Caller := ⟨none, [.stopped, .submittedUnknown], false, false⟩

/-- A sweep ends requests one after the other. -/
def Swept (s s' : Store) : Prop :=
  ∃ id r r' c c' m m' e, Ended sweeper s s' id r r' c c' m m' e

theorem pointingConversation_some (h : pointingConversation s id r = some c) :
    s.conversations.get r.conversationId = some c
      ∧ c.activeInferenceRequestId = some id := by
  obtain ⟨hget, hp⟩ := Option.filter_eq_some_iff.mp h
  simp only [Bool.and_eq_true, beq_iff_eq] at hp
  exact ⟨hget, hp.2⟩

/-- One row of the sweep: skipped, or ended. -/
theorem reconcileExpiredRow_swept (hinv : ChatInv s) (now id : Nat) :
    reconcileExpiredRow now s id = s ∨ Swept s (reconcileExpiredRow now s id) := by
  unfold reconcileExpiredRow
  split
  · exact Or.inl rfl
  · next r hr =>
      split
      · next m c hm hc =>
          right
          obtain ⟨hcget, hpointed⟩ := pointingConversation_some hc
          obtain ⟨hmget, -⟩ := Option.filter_eq_some_iff.mp hm
          have hact := hinv.active_of_pointed hcget hpointed hr
          have hlink : m.requestId = some id := by
            obtain ⟨y, hy, hlink, -⟩ := hinv.link.linked id r hr hact
            obtain rfl := Option.some.inj (hmget.symm.trans hy)
            exact hlink
          split
          · next hrun => exact ⟨id, r, _, c, _, m, _, _,
              { requests := Table.replaced_modify hr _
                same := ⟨rfl, rfl, rfl, rfl, rfl, rfl, rfl⟩, own := Or.inl rfl
                wasActive := hact, isFinal := rfl
                heeded := fun hst => by rw [hst] at hrun; cases hrun
                outcome := rfl, token := rfl, counter := rfl
                conversations := Table.replaced_modify hcget _
                pointed := hpointed, freed := rfl, version := rfl, tenant := rfl
                creator := rfl, messages := Table.replaced_modify hmget _, link := hlink
                messageSame := ⟨rfl, rfl, rfl⟩, messagePlace := ⟨rfl, rfl⟩
                events := rfl, eventRequest := rfl, eventTenant := rfl, eventSequence := rfl, eventTerminal := rfl
                eventNames := ⟨rfl, rfl, rfl, (fun _ h => by cases h; rfl), fun h => by
                  cases h⟩
                eventCompleted := (fun _ h => by cases h), outbox := rfl
                billing := Or.inl rfl, uuid := rfl }⟩
          · exact ⟨id, r, _, c, _, m, _, _,
              { requests := Table.replaced_modify hr _
                same := ⟨rfl, rfl, rfl, rfl, rfl, rfl, rfl⟩, own := Or.inl rfl
                wasActive := hact, isFinal := rfl, heeded := fun _ => Or.inl rfl
                outcome := rfl, token := rfl, counter := rfl
                conversations := Table.replaced_modify hcget _
                pointed := hpointed, freed := rfl, version := rfl, tenant := rfl
                creator := rfl, messages := Table.replaced_modify hmget _, link := hlink
                messageSame := ⟨rfl, rfl, rfl⟩, messagePlace := ⟨rfl, rfl⟩
                events := rfl, eventRequest := rfl, eventTenant := rfl, eventSequence := rfl, eventTerminal := rfl
                eventNames := ⟨rfl, rfl, rfl, (fun _ h => by cases h), fun h => by
                  cases h⟩
                eventCompleted := (fun _ h => by cases h), outbox := rfl
                billing := Or.inl rfl, uuid := rfl }⟩
      · exact Or.inl rfl

theorem Swept.effect (h : Swept s s') : Effect sweeper s s' := by
  obtain ⟨id, r, r', c, c', m, m', e, h⟩ := h
  exact Effect.ended id r r' c c' m m' e h

/-- The loop of the sweep, from a store that satisfies the invariant. -/
theorem reconcileExpired_sweep (hinv : ChatInv s) (now : Nat) (ids : List Nat) :
    Relation.ReflTransGen Swept s (ids.foldl (reconcileExpiredRow now) s) := by
  induction ids generalizing s with
  | nil => exact Relation.ReflTransGen.refl
  | cons id ids ih =>
      rw [List.foldl_cons]
      cases reconcileExpiredRow_swept hinv now id with
      | inl hskip =>
          rw [hskip]
          exact ih hinv
      | inr hswept => exact (ih (hinv.effect hswept.effect)).head hswept

-- =============================================================== accept

theorem claimIdempotency_ok {k : IdempotencyKey}
    {x : Nat × IdempotencyRecord × Bool × Store}
    (h : claimIdempotency s k = .ok x) : ∃ t, x.2.2.2 = { s with idempotency := t } := by
  unfold claimIdempotency at h
  split at h
  · simp only [bind_eq_ok, pure_eq_ok] at h
    obtain ⟨-, -, rfl⟩ := h
    exact ⟨s.idempotency, rfl⟩
  · rw [pure_eq_ok] at h
    subst h
    exact ⟨_, rfl⟩

/-- A store that differs from `s` in the acceptance bookkeeping and in
its messages only. -/
structure SameBase (s t : Store) : Prop where
  billing : t.billing = s.billing
  conversations : t.conversations = s.conversations
  requests : t.requests = s.requests
  events : t.events = s.events
  outbox : t.outbox = s.outbox
  uuid : t.nextUuid = s.nextUuid

/-- How the message table of an acceptance looks before the new link is
set: the answer goes into `mid`, every other old row is kept and every
other new row is unlinked. -/
structure AnswerSlot (s : Store) (a : Acceptance) (messages : Table Message)
    (mid : Nat) (m : Message) : Prop where
  get : messages.get mid = some m
  streaming : m.status = .streaming ∧ m.content = ""
  owner : m.tenantId = a.tenantId ∧ m.conversationId = a.conversationId
  old : ∀ m₀, s.messages.get mid = some m₀ →
    m₀.conversationId = a.conversationId ∧ m₀.tenantId = a.tenantId
  kept : ∀ j x, j ≠ mid → s.messages.get j = some x → messages.get j = some x
  other : ∀ j x, j ≠ mid → messages.get j = some x →
    s.messages.get j = some x ∨ x.requestId = none
  turn : Turn s messages a.tenantId a.conversationId mid m

/-- Linking the answer to its request leaves the turn as it is. -/
theorem Turn.link {messages : Table Message} {tenantId : Nat}
    (h : Turn s messages tenantId cid mid m) (requestId : Option Nat) :
    Turn s (messages.modify mid fun m => { m with requestId }) tenantId cid mid
      { m with requestId } := by
  cases h with
  | submitted mu hmessages hmid howner hrole hplace hlink =>
      refine Turn.submitted mu ?_ hmid howner hrole hplace hlink
      rw [hmessages, hmid, ← Table.nextId_insert s.messages mu, Table.modify_insert_self]
  | regenerated m₀ hmessages hlatest hrole hplace =>
      exact Turn.regenerated m₀ (hmessages.modify _) hlatest hrole hplace

/-- `_append_request_transaction` accepts into an idle conversation. -/
theorem appendRequestTransaction_effect {t : Store} {now : Nat}
    {catalog : Catalog.CatalogRows} {book : Catalog.PriceBook} {a : Acceptance}
    {x : ChatRequestRecord × Store}
    (h : appendRequestTransaction now catalog book a t = .ok x) (hbase : SameBase s t)
    (hc : s.conversations.get a.conversationId = some c)
    (hidle : c.activeInferenceRequestId = none) (hten : c.tenantId = a.tenantId)
    (hslot : ∃ m, AnswerSlot s a (appendMessages now t a).1 (appendMessages now t a).2 m)
    (idemId : Nat) :
    Effect ⟨none, [], false, false⟩ s (completeIdempotency x.2 idemId x.1.requestDbId) := by
  obtain ⟨m, hslot⟩ := hslot
  simp only [appendRequestTransaction, bind_eq_ok, raiseIf_eq_ok, orRaise_eq_ok,
    pure_eq_ok] at h
  obtain ⟨decision, -, -, hindex, ⟨reservation, billing⟩, hreserve, -, -, c₁,
    hc₁, rfl⟩ := h
  rw [hbase.conversations] at hc₁
  obtain rfl := Option.some.inj (hc.symm.trans hc₁)
  refine Effect.accepted a.conversationId (appendMessages now t a).2 c
    { c with activeInferenceRequestId := some t.requests.nextId
             version := c.version + 1, updatedAt := now }
    (acceptedRequest now t.nextUuid (appendMessages now t a).2
      decision.priceVersionId reservation.reservationId a)
    { m with requestId := some t.requests.nextId }
    (startedEvent now t.requests.nextId t.nextUuid (appendMessages now t a).2 a)
    (executeCommand (c.version + 1) t.nextUuid (appendMessages now t a).2
      reservation.reservationId a)
    { conversations := ?_, idle := hidle, busy := ?_, version := rfl, tenant := rfl, creator := rfl
      requests := ?_, requestTenant := hten.symm, requestConversation := rfl
      requestMessage := rfl, queued := rfl, counter := rfl, unleased := rfl
      noProvider := rfl, unindexed := ?_, events := ?_, eventRequest := ?_
      eventTenant := rfl, eventSequence := rfl, eventBody := rfl
      eventNames := ⟨rfl, rfl, rfl, (fun _ h => by cases h), fun _ => rfl⟩, outbox := ?_
      command := ⟨rfl, rfl⟩, message := ?_, messageLink := ?_
      messageOwner := hslot.owner, streaming := hslot.streaming
      messageOld := ?_, messageKept := ?_, messageOther := ?_
      turn := hten ▸ hslot.turn.link _, hold := ?_, uuid := ?_ }
  · rw [← hbase.conversations] at hc ⊢
    exact Table.replaced_modify hc _
  · rw [hbase.requests]
  · simp only [completeIdempotency, hbase.requests]
  · rw [Bool.not_eq_true] at hindex
    rw [← hindex, violatesActiveIndex, violatesActiveIndex, hbase.requests]
    rfl
  · simp only [completeIdempotency, hbase.events]
  · exact congrArg Table.nextId hbase.requests
  · simp only [completeIdempotency, hbase.outbox]
  · simp only [completeIdempotency, Table.get_modify_self, hslot.get, Option.map_some]
  · rw [hbase.requests]
  · intro m₀ hm₀
    rw [hten]
    exact hslot.old m₀ hm₀
  · intro j y hj hy
    simp only [completeIdempotency, Table.get_modify_ne _ hj.symm]
    exact hslot.kept j y hj hy
  · intro j y hj hy
    simp only [completeIdempotency, Table.get_modify_ne _ hj.symm] at hy
    exact hslot.other j y hj hy
  · refine ⟨now, decision.price, now + seconds (15 * 60), reservation, ?_, rfl⟩
    rw [mapError_eq_ok, hbase.billing, hbase.requests] at hreserve
    exact hreserve
  · exact congrArg (· + 1) hbase.uuid

theorem create_effect {now : Nat} {catalog : Catalog.CatalogRows}
    {tenantId actorUserId : Nat} {key clientRequestId requestHash : String}
    {x : Nat × Bool × Store}
    (h : create now catalog tenantId actorUserId key clientRequestId requestHash s
      = .ok x) : Effect ⟨none, [], false, false⟩ s x.2.2 := by
  simp only [create, bind_eq_ok] at h
  obtain ⟨⟨idemId, idem, inserted, s₁⟩, hclaim, h⟩ := h
  obtain ⟨t, ht⟩ := claimIdempotency_ok hclaim
  simp only at ht h
  subst ht
  split at h
  · simp only [bind_eq_ok, pure_eq_ok] at h
    obtain ⟨-, -, -, -, rfl⟩ := h
    exact Effect.quiet ⟨rfl, rfl, rfl, rfl, rfl, rfl⟩ (Or.inl rfl)
  · simp only [bind_eq_ok, pure_eq_ok] at h
    obtain ⟨p, -, rfl⟩ := h
    exact Effect.opened _ ⟨rfl, rfl, rfl, rfl, rfl, rfl, rfl, rfl⟩

/-- A submit answers into a message of its own, after the user's. -/
theorem submit_slot {t : Store} {a : Acceptance} {text : String} (now : Nat)
    (hm : t.messages = s.messages) (hu : a.userContent = some text)
    (ha : a.assistantMessageId = none) :
    ∃ m, AnswerSlot s a (appendMessages now t a).1 (appendMessages now t a).2 m := by
  simp only [appendMessages, hm, hu, ha]
  refine ⟨_, { get := Table.get_insert_self _ _, streaming := ⟨rfl, rfl⟩
               owner := ⟨rfl, rfl⟩, old := ?_, kept := ?_, other := ?_
               turn := ?_ }⟩
  · intro m₀ hm₀
    have := Table.lt_nextId hm₀
    rw [Table.nextId_insert] at this
    omega
  · intro j x hj hx
    exact Table.get_insert_of_some (Table.get_insert_of_some hx _) _
  · intro j x hj hx
    obtain ⟨rfl, rfl⟩ | hx := Table.get_insert_cases hx
    · exact Or.inr rfl
    · obtain ⟨-, rfl⟩ | hx := Table.get_insert_cases hx
      · exact Or.inr rfl
      · exact Or.inl hx
  · refine Turn.submitted _ rfl ?_ ⟨rfl, rfl⟩ ⟨rfl, rfl⟩ ?_ rfl
    · exact Table.nextId_insert _ _
    · have hmax : maxSequence t a.tenantId a.conversationId
          = maxSequence s a.tenantId a.conversationId := by
        simp only [maxSequence, hm]
      exact ⟨by rw [← hmax], by rw [← hmax]; rfl⟩

theorem submit_effect {now : Nat} {catalog : Catalog.CatalogRows}
    {book : Catalog.PriceBook} {tenantId actorUserId conversationId : Nat}
    {content clientRequestId requestHash : String} {x : AcceptedChatRequest × Store}
    (h : submit now catalog book tenantId actorUserId conversationId content
      clientRequestId requestHash s = .ok x) : Effect ⟨none, [], false, false⟩ s x.2 := by
  simp only [submit, bind_eq_ok] at h
  obtain ⟨⟨idemId, idem, inserted, s₁⟩, hclaim, h⟩ := h
  obtain ⟨t, ht⟩ := claimIdempotency_ok hclaim
  simp only at ht h
  subst ht
  split at h
  · simp only [bind_eq_ok, pure_eq_ok] at h
    obtain ⟨-, -, rfl⟩ := h
    exact Effect.quiet ⟨rfl, rfl, rfl, rfl, rfl, rfl⟩ (Or.inl rfl)
  · simp only [bind_eq_ok, orRaise_eq_ok, raiseIf_eq_ok, not_not, pure_eq_ok] at h
    obtain ⟨c, hc, -, hidle, deploymentId, -, ⟨request, s₂⟩, happend, rfl⟩ := h
    obtain ⟨hcget, hcp⟩ := Option.filter_eq_some_iff.mp hc
    simp only [Bool.and_eq_true, beq_iff_eq] at hcp
    exact appendRequestTransaction_effect (s := s) happend
      ⟨rfl, rfl, rfl, rfl, rfl, rfl⟩
      hcget hidle hcp.1 (submit_slot now rfl rfl rfl) idemId

/-- A regenerate answers into the reset target; no other row is touched. -/
theorem regenerate_slot {t : Store} {a : Acceptance} {target : Message} {now : Nat}
    (hm : t.messages = s.messages.modify mid fun m =>
      { m with status := .streaming, content := "", updatedAt := now })
    (hu : a.userContent = none) (ha : a.assistantMessageId = some mid)
    (hget : s.messages.get mid = some target)
    (howner : target.tenantId = a.tenantId
      ∧ target.conversationId = a.conversationId)
    (hlatest : ∃ x, latestMessage s a.tenantId a.conversationId = some (mid, x))
    (hrole : target.role = .assistant) :
    AnswerSlot s a (appendMessages now t a).1 (appendMessages now t a).2
      { target with status := .streaming, content := "", updatedAt := now } := by
  simp only [appendMessages, hm, hu, ha]
  refine { get := ?_, streaming := ⟨rfl, rfl⟩, owner := howner, old := ?_
           kept := ?_, other := ?_
           turn := Turn.regenerated target (Table.replaced_modify hget _) hlatest
             ⟨hrole, hrole⟩ rfl }
  · rw [Table.get_modify_self, hget]
    rfl
  · intro m₀ hm₀
    obtain rfl := Option.some.inj (hget.symm.trans hm₀)
    exact howner.symm
  · intro j y hj hy
    rw [Table.get_modify_ne _ hj.symm, hy]
  · intro j y hj hy
    rw [Table.get_modify_ne _ hj.symm] at hy
    exact Or.inl hy

theorem regenerate_effect {now : Nat} {catalog : Catalog.CatalogRows}
    {book : Catalog.PriceBook} {tenantId actorUserId conversationId messageId : Nat}
    {clientRequestId requestHash : String} {x : AcceptedChatRequest × Store}
    (h : regenerate now catalog book tenantId actorUserId conversationId messageId
      clientRequestId requestHash s = .ok x) : Effect ⟨none, [], false, false⟩ s x.2 := by
  simp only [regenerate, bind_eq_ok] at h
  obtain ⟨⟨idemId, idem, inserted, s₁⟩, hclaim, h⟩ := h
  obtain ⟨t, ht⟩ := claimIdempotency_ok hclaim
  simp only at ht h
  subst ht
  split at h
  · simp only [bind_eq_ok, pure_eq_ok] at h
    obtain ⟨-, -, rfl⟩ := h
    exact Effect.quiet ⟨rfl, rfl, rfl, rfl, rfl, rfl⟩ (Or.inl rfl)
  · simp only [bind_eq_ok, orRaise_eq_ok, raiseIf_eq_ok, not_not, pure_eq_ok] at h
    obtain ⟨c, hc, -, hidle, target, htarget, ⟨latestId, latest⟩, hlatest, -, hplace,
      deploymentId, -, ⟨request, s₂⟩, happend, rfl⟩ := h
    obtain ⟨hcget, hcp⟩ := Option.filter_eq_some_iff.mp hc
    obtain ⟨htget, htp⟩ := Option.filter_eq_some_iff.mp htarget
    simp only [Bool.and_eq_true, beq_iff_eq] at hcp htp
    simp only [not_or, not_not] at hplace
    obtain ⟨rfl, hrole⟩ := hplace
    exact appendRequestTransaction_effect (s := s) happend
      ⟨rfl, rfl, rfl, rfl, rfl, rfl⟩
      hcget hidle hcp.1 ⟨_, regenerate_slot rfl rfl rfl htget htp ⟨latest, hlatest⟩
        hrole⟩ idemId

-- ============================================================ one step

/-- The caller of an op. -/
def Op.caller : Op → Caller
  | .requeueClaimed _ e => ⟨e.leaseToken, [], true, false⟩
  | .checkLeaseAndStop _ _ e => ⟨e.leaseToken, [], false, false⟩
  | .appendDelta _ _ _ e _ _ _ => ⟨e.leaseToken, [], false, false⟩
  | .markCompleted _ _ e _ _ _ _ => ⟨e.leaseToken, [.succeeded], false, false⟩
  | .markStopped _ _ e _ _ => ⟨e.leaseToken, [.stopped], false, false⟩
  | .markFailed _ _ e _ _ _ _ => ⟨e.leaseToken, [.failed], false, false⟩
  | .markSubmittedUnknown _ _ e _ _ => ⟨e.leaseToken, [.submittedUnknown], false, false⟩
  | .stop _ _ _ _ _ => ⟨none, [.stopped], false, false⟩
  | .reconcileExpiredOnce _ _ _ => sweeper
  | .billing _ => ⟨none, [], false, true⟩
  | _ => ⟨none, [], false, false⟩

/-- What a step does: one effect, or a sweep of endings. -/
inductive Effects (who : Caller) (s s' : Store) : Prop
  | one (h : Effect who s s')
  | sweep (hwho : who = sweeper) (h : Relation.ReflTransGen Swept s s')

variable {book : Catalog.PriceBook}

theorem perform_effects (hinv : ChatInv s) {op : Op}
    (h : op.perform book s = .ok s') : Effects op.caller s s' := by
  cases op with
  | create now catalog tenantId actorUserId key clientRequestId requestHash =>
      simp only [Op.perform, bind_eq_ok, pure_eq_ok] at h
      obtain ⟨x, hx, rfl⟩ := h
      exact Effects.one (create_effect hx)
  | submit now catalog tenantId actorUserId conversationId content clientRequestId
      requestHash =>
      simp only [Op.perform, bind_eq_ok, pure_eq_ok] at h
      obtain ⟨x, hx, rfl⟩ := h
      exact Effects.one (submit_effect hx)
  | regenerate now catalog tenantId actorUserId conversationId messageId
      clientRequestId requestHash =>
      simp only [Op.perform, bind_eq_ok, pure_eq_ok] at h
      obtain ⟨x, hx, rfl⟩ := h
      exact Effects.one (regenerate_effect hx)
  | stop now tenantId actorUserId conversationId requestId =>
      simp only [Op.perform, bind_eq_ok, pure_eq_ok] at h
      obtain ⟨x, hx, rfl⟩ := h
      exact Effects.one (stop_effect hinv hx)
  | claimQueued now catalog locked workerId leaseSeconds tenantId requestId =>
      simp only [Op.perform, bind_eq_ok, pure_eq_ok] at h
      obtain ⟨x, hx, rfl⟩ := h
      exact Effects.one (claimQueued_effect hx)
  | requeueClaimed now e =>
      simp only [Op.perform, pure_eq_ok] at h
      subst h
      exact Effects.one (requeueClaimed_effect now e s)
  | checkLeaseAndStop ext now e =>
      simp only [Op.perform, pure_eq_ok] at h
      subst h
      exact Effects.one (checkLeaseAndStop_effect ext now e s)
  | appendDelta ext now lockedNow e expectedSequence delta provider =>
      simp only [Op.perform, bind_eq_ok, pure_eq_ok] at h
      obtain ⟨x, hx, rfl⟩ := h
      exact Effects.one (appendDelta_effect hinv hx)
  | markCompleted now lockedNow e expectedSequence content provider usage =>
      simp only [Op.perform, bind_eq_ok, pure_eq_ok] at h
      obtain ⟨x, hx, rfl⟩ := h
      exact Effects.one (markCompleted_effect hinv hx)
  | markStopped now lockedNow e expectedSequence content =>
      simp only [Op.perform, bind_eq_ok, pure_eq_ok] at h
      obtain ⟨x, hx, rfl⟩ := h
      exact Effects.one
        (terminalWithoutUsage_effect hinv (fun _ => active_of_running) rfl
          (fun _ => Or.inl rfl) hx)
  | markFailed now lockedNow e expectedSequence errorCode errorDetails provider =>
      simp only [Op.perform, bind_eq_ok, pure_eq_ok] at h
      obtain ⟨x, hx, rfl⟩ := h
      exact Effects.one
        (terminalWithoutUsage_effect hinv (fun _ => active_of_running) rfl
          (fun _ => Or.inr rfl) hx)
  | markSubmittedUnknown now lockedNow e provider errorCode =>
      simp only [Op.perform, bind_eq_ok, pure_eq_ok] at h
      obtain ⟨x, hx, rfl⟩ := h
      exact Effects.one
        (terminalWithoutUsage_effect hinv (fun _ => active_of_contains_running) rfl
          (fun h => by cases h) hx)
  | reconcileExpiredOnce now limit locked =>
      simp only [Op.perform, reconcileExpiredOnce, bind_eq_ok, pure_eq_ok] at h
      obtain ⟨-, -, rfl⟩ := h
      exact Effects.sweep rfl (reconcileExpired_sweep hinv now _)
  | billing call =>
      simp only [Op.perform, pure_eq_ok] at h
      subst h
      exact Effects.one (Effect.quiet ⟨rfl, rfl, rfl, rfl, rfl, rfl⟩
        (Or.inr ⟨rfl, call, rfl⟩))

/-- Under the invariant every step is made of effects. -/
theorem step_effects (book : Catalog.PriceBook) (hinv : ChatInv s) (op : Op) :
    Effects op.caller s (step book s op) := by
  unfold step
  split
  · next s' h => exact perform_effects hinv h
  · exact Effects.one (Effect.refl s)

/-- A fact each effect carries over is carried over by a step. -/
theorem Effects.carry {P : Store → Prop} (h : Effects who s s') (hinv : ChatInv s)
    (heff : ∀ {who a b}, ChatInv a → Effect who a b → P a → P b) (hs : P s) :
    ChatInv s' ∧ P s' := by
  cases h with
  | one h => exact ⟨hinv.effect h, heff hinv h hs⟩
  | sweep _ h =>
      induction h with
      | refl => exact ⟨hinv, hs⟩
      | tail _ hswept ih => exact ⟨ih.1.effect hswept.effect, heff ih.1 hswept.effect ih.2⟩

/-- Every step keeps the invariant. -/
theorem ChatInv.step (hinv : ChatInv s) (op : Op) : ChatInv (step book s op) :=
  ((step_effects book hinv op).carry (P := fun _ => True) hinv (fun _ _ _ => trivial)
    trivial).1

/-- Every run from an opening store keeps the invariant. -/
theorem chatInv_run (h : Opening s) (ops : List Op) :
    ChatInv (run (Chat.step book) s ops) :=
  run_invariant (fun _ op hinv => hinv.step op) h.inv ops

end Mosaic.Chat
