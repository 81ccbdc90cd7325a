/-
What an operation can do to the chat rows.

The operations of the two repositories repeat the same few row
transitions under different guards. `Effect` names them once: nothing
visible, a new conversation, an acceptance, a move of the lease, a
delta, or the end of a request. Each carries the guards the code
checked, so an invariant of the store is proved against six cases and a
change of one operation stays in its own inversion lemma
(Proofs/Steps.lean).

An effect is indexed by its caller: the lease token it presented (`none`
for the API and the reconcilers), the outcomes it can end a request
with, and whether it may put one back into the queue or call the billing
service. The fenced cases say that the row carried the token.
-/
import Mosaic.Chat.System
import Mosaic.Lib.SeqLog

namespace Mosaic.Chat

open Lib

variable {who : Caller} {s s' : Store}

-- ============================================================= statuses

/-- The request occupies its conversation. -/
def RequestStatus.active : RequestStatus → Bool
  | .queued => true
  | .running => true
  | .stopRequested => true
  | _ => false

/-- The request is over, its outcome known or not. -/
def RequestStatus.final : RequestStatus → Bool
  | .succeeded => true
  | .failed => true
  | .stopped => true
  | .submittedUnknown => true
  | _ => false

theorem RequestStatus.not_final_of_active {st : RequestStatus}
    (h : st.active = true) : st.final = false := by
  cases st <;> simp_all [active, final]

/-- An active status is one of the index. -/
theorem RequestStatus.indexed_of_active {st : RequestStatus}
    (h : st.active = true) : indexedStatus st = true := by
  cases st <;> simp_all [active, indexedStatus]

/-- The statuses a worker may write from are active. -/
theorem active_of_running {st : RequestStatus}
    (h : runningStatuses.contains st = true) : st.active = true := by
  cases st <;> simp_all [runningStatuses, RequestStatus.active]

-- ================================================================= logs

/-- The text a `delta` event contributes. -/
def EventBody.text : EventBody → String
  | .delta text => text
  | _ => ""

/-- The concatenation of a log's deltas. -/
def deltas (log : List StreamEvent) : String :=
  log.foldl (fun text e => text ++ e.body.text) ""

theorem deltas_snoc (log : List StreamEvent) (e : StreamEvent) :
    deltas (log ++ [e]) = deltas log ++ e.body.text := by
  simp [deltas, List.foldl_append]

theorem deltas_append (xs ys : List StreamEvent) :
    deltas (xs ++ ys) = deltas xs ++ deltas ys := by
  induction ys using List.reverseRecOn with
  | nil =>
      rw [List.append_nil]
      exact String.append_empty.symm
  | append_singleton ys e ih =>
      rw [← List.append_assoc, deltas_snoc, deltas_snoc, ih, String.append_assoc]

def EventBody.started? : EventBody → Bool
  | .started => true
  | _ => false

/-- The log of a request: numbered `0..last_event_sequence`, opened by
`started`, closed exactly in a final status. -/
abbrev LogWellFormed (r : InferenceRequest) (log : List StreamEvent) : Prop :=
  SeqLog.WellFormed (fun e => e.sequenceNo) (fun e => e.body.started?)
    (fun e => e.body.terminal) r.lastEventSequence (r.status.final = true) log

/-- An insert shows in the log it is for, at the end. -/
theorem log_insert_self {e : StreamEvent} {id : Nat}
    (hevents : s'.events = s.events.insert e) (he : e.inferenceRequestId = id) :
    s'.log id = s.log id ++ [e] := by
  unfold Store.log
  rw [hevents, Table.rows_insert, List.filter_append]
  simp [he]

/-- It does not show in another log. -/
theorem log_insert_other {e : StreamEvent} {id : Nat}
    (hevents : s'.events = s.events.insert e) (he : e.inferenceRequestId ≠ id) :
    s'.log id = s.log id := by
  unfold Store.log
  rw [hevents, Table.rows_insert, List.filter_append]
  simp [he]

theorem log_congr {id : Nat} (hevents : s'.events = s.events) :
    s'.log id = s.log id := by
  unfold Store.log
  rw [hevents]

-- ============================================================== effects

/-- The columns of a request nothing rewrites after acceptance. -/
structure SameRequest (r r' : InferenceRequest) : Prop where
  tenantId : r'.tenantId = r.tenantId
  requestId : r'.requestId = r.requestId
  conversationId : r'.conversationId = r.conversationId
  messageId : r'.messageId = r.messageId
  reservation : r'.billingReservationId = r.billingReservationId
  price : r'.acceptedPriceVersionId = r.acceptedPriceVersionId
  actor : r'.actorUserId = r.actorUserId

/-- Who performs an effect. -/
structure Caller where
  token : Option Nat
  outcomes : List RequestStatus
  requeues : Bool
  settles : Bool

/-- No conversation, message, request, event or command changed. -/
structure SameChat (s s' : Store) : Prop where
  conversations : s'.conversations = s.conversations
  messages : s'.messages = s.messages
  requests : s'.requests = s.requests
  events : s'.events = s.events
  outbox : s'.outbox = s.outbox
  uuid : s'.nextUuid = s.nextUuid

/-- The billing rows are untouched, or the caller made one call. -/
def BillingMove (who : Caller) (s s' : Store) : Prop :=
  s'.billing = s.billing
    ∨ (who.settles = true ∧ ∃ call, s'.billing = Billing.step s.billing call)

/-- A new conversation. -/
structure Opened (s s' : Store) (c : Conversation) : Prop where
  idle : c.activeInferenceRequestId = none
  conversations : s'.conversations = s.conversations.insert c
  messages : s'.messages = s.messages
  requests : s'.requests = s.requests
  events : s'.events = s.events
  outbox : s'.outbox = s.outbox
  billing : s'.billing = s.billing
  uuid : s'.nextUuid = s.nextUuid

/-- The payload of an event names the request it is about. -/
structure StreamEvent.Names (e : StreamEvent) (r : InferenceRequest) : Prop where
  requestId : e.requestId = r.requestId
  conversationId : e.conversationId = r.conversationId
  messageId : e.messageId = r.messageId
  error : ∀ err, e.body = .failed err → err.requestId = r.requestId
  started : e.body = .started → e.sequenceNo = 0

/-- Where an accepted request is answered: after a new user message, or
once more into the latest message. -/
inductive Turn (s : Store) (messages : Table Message) (tenantId cid mid : Nat)
    (m : Message) : Prop
  | submitted (mu : Message)
      (hmessages : messages = (s.messages.insert mu).insert m)
      (hmid : mid = s.messages.nextId + 1)
      (howner : mu.tenantId = tenantId ∧ mu.conversationId = cid)
      (hrole : mu.role = .user ∧ m.role = .assistant)
      (hplace : mu.sequenceNo = maxSequence s tenantId cid + 1
        ∧ m.sequenceNo = maxSequence s tenantId cid + 2)
      (hlink : mu.requestId = none)
  | regenerated (m₀ : Message)
      (hmessages : Table.Replaced s.messages messages mid m₀ m)
      (hlatest : ∃ x, latestMessage s tenantId cid = some (mid, x))
      (hrole : m₀.role = .assistant ∧ m.role = .assistant)
      (hplace : m.sequenceNo = m₀.sequenceNo)

/-- A request is accepted into the idle conversation `cid`, to be
answered into the message `mid`. -/
structure Accepted (s s' : Store) (cid mid : Nat) (c c' : Conversation)
    (r : InferenceRequest) (m : Message) (e : StreamEvent) (o : OutboxEvent) :
    Prop where
  conversations : Table.Replaced s.conversations s'.conversations cid c c'
  idle : c.activeInferenceRequestId = none
  busy : c'.activeInferenceRequestId = some s.requests.nextId
  version : c'.version = c.version + 1
  tenant : c'.tenantId = c.tenantId
  creator : c'.createdByUserId = c.createdByUserId
  requests : s'.requests = s.requests.insert r
  requestTenant : r.tenantId = c.tenantId
  requestConversation : r.conversationId = cid
  requestMessage : r.messageId = mid
  queued : r.status = .queued
  counter : r.lastEventSequence = 0
  unleased : r.leaseToken = none
  noProvider : r.providerRequestId = none
  unindexed : violatesActiveIndex s r.tenantId cid = false
  events : s'.events = s.events.insert e
  eventRequest : e.inferenceRequestId = s.requests.nextId
  eventTenant : e.tenantId = r.tenantId
  eventSequence : e.sequenceNo = 0
  eventBody : e.body = .started
  eventNames : e.Names r
  outbox : s'.outbox = s.outbox.insert o
  command : o.aggregateId = cid ∧ o.aggregateVersion = c'.version
  message : s'.messages.get mid = some m
  messageLink : m.requestId = some s.requests.nextId
  messageOwner : m.tenantId = r.tenantId ∧ m.conversationId = cid
  streaming : m.status = .streaming ∧ m.content = ""
  messageOld : ∀ m₀, s.messages.get mid = some m₀ →
    m₀.conversationId = cid ∧ m₀.tenantId = c.tenantId
  messageKept : ∀ j x, j ≠ mid → s.messages.get j = some x →
    s'.messages.get j = some x
  messageOther : ∀ j x, j ≠ mid → s'.messages.get j = some x →
    s.messages.get j = some x ∨ x.requestId = none
  turn : Turn s s'.messages c.tenantId cid mid m
  hold : ∃ now price expiresAt reservation,
    Billing.reserveInTransaction now r.tenantId "chat_inference" s.requests.nextId
        price expiresAt s.billing = .ok (reservation, s'.billing)
      ∧ r.billingReservationId = some reservation.reservationId
  uuid : s'.nextUuid = s.nextUuid + 1

/-- A request changes lease or status and stays active. -/
structure Moved (s s' : Store) (id : Nat) (r r' : InferenceRequest) : Prop where
  requests : Table.Replaced s.requests s'.requests id r r'
  same : SameRequest r r'
  counter : r'.lastEventSequence = r.lastEventSequence
  provider : r'.providerRequestId = r.providerRequestId
  wasActive : r.status.active = true
  isActive : r'.status.active = true
  conversations : s'.conversations = s.conversations
  messages : s'.messages = s.messages
  events : s'.events = s.events
  outbox : s'.outbox = s.outbox
  billing : s'.billing = s.billing

/-- The four moves. -/
inductive LeaseMove (who : Caller) (s s' : Store) (r r' : InferenceRequest) : Prop
  | claimed (hold : r.status = .queued) (hnew : r'.status = .running)
      (htok : r'.leaseToken = some s.nextUuid) (huuid : s'.nextUuid = s.nextUuid + 1)
  | requeued (hold : r.status = .running) (hnew : r'.status = .queued)
      (hmay : who.requeues = true)
      (hown : who.token.isSome = true ∧ r.leaseToken = who.token)
      (htok : r'.leaseToken = none) (huuid : s'.nextUuid = s.nextUuid)
  | beat (hst : r'.status = r.status)
      (hown : who.token.isSome = true ∧ r.leaseToken = who.token)
      (htok : r'.leaseToken = r.leaseToken) (huuid : s'.nextUuid = s.nextUuid)
  | stopRequested (hold : r.status = .running ∨ r.status = .stopRequested)
      (hnew : r'.status = .stopRequested) (htok : r'.leaseToken = r.leaseToken)
      (hlease : r'.leaseExpiresAt = r.leaseExpiresAt)
      (huuid : s'.nextUuid = s.nextUuid)

/-- A running request writes one delta into its message. -/
structure DeltaWritten (who : Caller) (s s' : Store) (id : Nat)
    (r r' : InferenceRequest) (m m' : Message) (e : StreamEvent) (text : String) :
    Prop where
  requests : Table.Replaced s.requests s'.requests id r r'
  same : SameRequest r r'
  own : who.token.isSome = true ∧ r.leaseToken = who.token
  running : r.status = .running ∧ r'.status = .running
  token : r'.leaseToken = r.leaseToken
  counter : r'.lastEventSequence = r.lastEventSequence + 1
  messages : Table.Replaced s.messages s'.messages r.messageId m m'
  link : m.requestId = some id
  messageSame : m'.requestId = m.requestId ∧ m'.tenantId = m.tenantId
    ∧ m'.conversationId = m.conversationId
  messagePlace : m'.role = m.role ∧ m'.sequenceNo = m.sequenceNo
  content : m'.content = m.content ++ text ∧ m'.status = m.status
  events : s'.events = s.events.insert e
  eventRequest : e.inferenceRequestId = id
  eventTenant : e.tenantId = r.tenantId
  eventSequence : e.sequenceNo = r.lastEventSequence + 1
  eventBody : e.body = .delta text
  eventNames : e.Names r
  conversations : s'.conversations = s.conversations
  outbox : s'.outbox = s.outbox
  billing : s'.billing = s.billing
  uuid : s'.nextUuid = s.nextUuid

/-- A completion records the usage of its request, unless it is there. -/
def Recorded (s s' : Store) (id : Nat) : Prop :=
  s'.billing = s.billing
    ∨ ∃ u : Billing.UsageRecord, u.source = .inferenceRequest id
      ∧ s'.billing = { s.billing with
          usageRecords := s.billing.usageRecords.insert u }

/-- An active request ends: its last event is written and its
conversation freed. -/
structure Ended (who : Caller) (s s' : Store) (id : Nat)
    (r r' : InferenceRequest) (c c' : Conversation) (m m' : Message)
    (e : StreamEvent) : Prop where
  requests : Table.Replaced s.requests s'.requests id r r'
  same : SameRequest r r'
  own : who.token = none ∨ r.leaseToken = who.token
  wasActive : r.status.active = true
  isFinal : r'.status.final = true
  heeded : r.status = .stopRequested → r'.status = .stopped ∨ r'.status = .failed
  outcome : who.outcomes.contains r'.status = true
  token : r'.leaseToken = none
  counter : r'.lastEventSequence = r.lastEventSequence + 1
  conversations : Table.Replaced s.conversations s'.conversations r.conversationId c c'
  pointed : c.activeInferenceRequestId = some id
  freed : c'.activeInferenceRequestId = none
  version : c'.version = c.version + 1
  tenant : c'.tenantId = c.tenantId
  creator : c'.createdByUserId = c.createdByUserId
  messages : Table.Replaced s.messages s'.messages r.messageId m m'
  link : m.requestId = some id
  messageSame : m'.requestId = m.requestId ∧ m'.tenantId = m.tenantId
    ∧ m'.conversationId = m.conversationId
  messagePlace : m'.role = m.role ∧ m'.sequenceNo = m.sequenceNo
  events : s'.events = s.events.insert e
  eventRequest : e.inferenceRequestId = id
  eventTenant : e.tenantId = r.tenantId
  eventSequence : e.sequenceNo = r.lastEventSequence + 1
  eventTerminal : e.body.terminal = true
  eventNames : e.Names r
  eventCompleted : ∀ content, e.body = .completed content → r'.status = .succeeded
  outbox : s'.outbox = s.outbox
  billing : s'.billing = s.billing ∨ (r'.status = .succeeded ∧ Recorded s s' id)
  uuid : s'.nextUuid = s.nextUuid

/-- One visible transition of the chat rows. -/
inductive Effect (who : Caller) (s s' : Store) : Prop
  | quiet (h : SameChat s s') (hb : BillingMove who s s')
  | opened (c : Conversation) (h : Opened s s' c)
  | accepted (cid mid : Nat) (c c' : Conversation) (r : InferenceRequest)
      (m : Message) (e : StreamEvent) (o : OutboxEvent)
      (h : Accepted s s' cid mid c c' r m e o)
  | moved (id : Nat) (r r' : InferenceRequest) (h : Moved s s' id r r')
      (hmove : LeaseMove who s s' r r')
  | delta (id : Nat) (r r' : InferenceRequest) (m m' : Message) (e : StreamEvent)
      (text : String) (h : DeltaWritten who s s' id r r' m m' e text)
  | ended (id : Nat) (r r' : InferenceRequest) (c c' : Conversation)
      (m m' : Message) (e : StreamEvent) (h : Ended who s s' id r r' c c' m m' e)

theorem Effect.refl (s : Store) : Effect who s s :=
  Effect.quiet ⟨rfl, rfl, rfl, rfl, rfl, rfl⟩ (Or.inl rfl)

end Mosaic.Chat
