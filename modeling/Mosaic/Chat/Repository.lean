/-
The conversation repository (app/conversations/repository.py): create,
submit, regenerate and stop.

Every mutation is one short database transaction. It either commits or
raises, so an operation is a function from the store to
`Except ChatError (result × Store)`; the row locks it takes make its
reads and writes one atomic step.
-/
import Mosaic.Chat.Store

namespace Mosaic.Chat

open Lib

-- ============================================================== records

/-- `ChatRequestRecord`. -/
structure ChatRequestRecord where
  requestDbId : Nat
  requestId : Nat
  conversationId : Nat
  messageId : Nat
  tenantId : Nat
  status : RequestStatus
  lastEventSequence : Int
deriving Repr, DecidableEq

/-- `AcceptedChatRequest`. -/
structure AcceptedChatRequest where
  request : ChatRequestRecord
  replayed : Bool
deriving Repr, DecidableEq

/-- `StopResult`. -/
structure StopResult where
  requestId : Nat
  status : RequestStatus
  changed : Bool
  lastEventSequence : Int
deriving Repr, DecidableEq

/-- `_request_record`. -/
def requestRecord (id : Nat) (r : InferenceRequest) : ChatRequestRecord :=
  { requestDbId := id, requestId := r.requestId, conversationId := r.conversationId
    messageId := r.messageId, tenantId := r.tenantId, status := r.status
    lastEventSequence := r.lastEventSequence }

-- ============================================================== lookups

/-- `_lock_conversation`. -/
def lockConversation (s : Store) (tenantId actorUserId conversationId : Nat) :
    Option Conversation :=
  (s.conversations.get conversationId).filter fun c =>
    c.tenantId == tenantId && c.createdByUserId == actorUserId

/-- `_message_for_request`. -/
def messageForRequest (s : Store) (tenantId : Nat) (r : InferenceRequest) :
    Option Message :=
  (s.messages.get r.messageId).filter fun m =>
    m.tenantId == tenantId && m.conversationId == r.conversationId

/-- `coalesce(max(sequence_no), 0)` over the conversation's messages. -/
def maxSequence (s : Store) (tenantId conversationId : Nat) : Nat :=
  ((s.messages.rows.filter fun m =>
    m.tenantId == tenantId && m.conversationId == conversationId).map
      (·.sequenceNo)).foldl max 0

/-- The message with the highest sequence number. -/
def latestMessage (s : Store) (tenantId conversationId : Nat) :
    Option (Nat × Message) :=
  (s.messages.ordered (fun a b => b.2.sequenceNo ≤ a.2.sequenceNo) fun e =>
    e.2.tenantId == tenantId && e.2.conversationId == conversationId).head?

/-- `_resolve_route`: an entitled active chat product and its first
active deployment by priority and age, `LIMIT 1`. -/
def resolveRoute (catalog : Catalog.CatalogRows) (tenantId productModelId : Nat) :
    Except ChatError Nat := do
  let _ ← orRaise ((catalog.products.get productModelId).filter fun p =>
    Catalog.entitled catalog tenantId productModelId
      && p.modality == .text && p.taskType == .chat && p.status == .active)
    .modelNotFound
  let (deploymentId, _) ← orRaise
    (catalog.deployments.ordered catalog.routeLe
      fun e => e.2.productModelId == productModelId && e.2.status == .active
        && (catalog.endpoints.get e.2.providerEndpointId).any
            fun p => p.status == .active).head?
    .modelUnavailable
  return deploymentId

-- ========================================================== idempotency

/-- The caller's key and what it stands for. -/
structure IdempotencyKey where
  tenantId : Nat
  actorUserId : Nat
  operation : IdempotencyOperation
  key : String
  requestHash : String

/-- `_claim_idempotency`: the record of the key, and whether this call
inserted it. -/
def claimIdempotency (s : Store) (k : IdempotencyKey) :
    Except ChatError (Nat × IdempotencyRecord × Bool × Store) :=
  match s.idempotency.find fun i => i.tenantId == k.tenantId
      && i.actorUserId == k.actorUserId && i.operation == k.operation
      && i.key == k.key with
  | some (id, existing) => do
      raiseIf (existing.requestHash ≠ k.requestHash) .idempotencyConflict
      return (id, existing, false, s)
  | none =>
      let row : IdempotencyRecord :=
        { tenantId := k.tenantId, actorUserId := k.actorUserId
          operation := k.operation, key := k.key, requestHash := k.requestHash
          resourceId := none }
      return (s.idempotency.nextId, row, true,
        { s with idempotency := s.idempotency.insert row })

/-- `_complete_idempotency`. -/
def completeIdempotency (s : Store) (id resourceId : Nat) : Store :=
  { s with idempotency := s.idempotency.modify id fun i =>
      { i with resourceId := some resourceId } }

/-- `_replay_request`. -/
def replayRequest (s : Store) (tenantId actorUserId : Nat) (i : IdempotencyRecord) :
    Except ChatError AcceptedChatRequest := do
  let id ← orRaise i.resourceId .idempotencyInProgress
  let r ← orRaise ((s.requests.get id).filter fun r =>
      r.tenantId == tenantId && r.actorUserId == some actorUserId
        && (s.conversations.get r.conversationId).any fun c =>
          c.tenantId == r.tenantId && c.createdByUserId == actorUserId)
    (.infrastructure "CONVERSATION_UNAVAILABLE")
  return { request := requestRecord id r, replayed := true }

-- =============================================================== accept

/-- What `submit` and `regenerate` hand to `_append_request_transaction`. -/
structure Acceptance where
  tenantId : Nat
  actorUserId : Nat
  conversationId : Nat
  productModelId : Nat
  deploymentId : Nat
  userContent : Option String
  assistantMessageId : Option Nat
  requestHash : String
  parentRequestId : Option Nat

/-- The message rows an acceptance adds, and the assistant message it
answers into. -/
def appendMessages (now : Nat) (s : Store) (a : Acceptance) : Table Message × Nat :=
  let next := maxSequence s a.tenantId a.conversationId + 1
  let row : Message :=
    { tenantId := a.tenantId, conversationId := a.conversationId, sequenceNo := next
      role := .user, content := "", status := .accepted
      authorUserId := some a.actorUserId, requestId := none
      createdAt := now, updatedAt := now }
  let messages := match a.userContent with
    | some text => s.messages.insert { row with content := text }
    | none => s.messages
  let next := if a.userContent.isSome then next + 1 else next
  match a.assistantMessageId with
  | some id => (messages, id)
  | none =>
      (messages.insert { row with
        sequenceNo := next, role := .assistant, status := .streaming
        authorUserId := none }, messages.nextId)

/-- The queued request row of an acceptance; `_append_event` has already
written sequence 0 and the row's counter with it. -/
def acceptedRequest (now requestId assistantId priceVersionId reservationId : Nat)
    (a : Acceptance) : InferenceRequest :=
  { tenantId := a.tenantId, requestId, actorUserId := some a.actorUserId
    conversationId := a.conversationId, messageId := assistantId
    modelDeploymentId := a.deploymentId, acceptedPriceVersionId := priceVersionId
    billingReservationId := some reservationId
    status := .queued, providerRequestId := none, requestHash := a.requestHash
    inputTokens := 0, outputTokens := 0, errorCode := none
    sanitizedErrorDetails := none, terminalReason := none, lastEventSequence := 0
    parentRequestId := a.parentRequestId, workerId := none, leaseToken := none
    leaseExpiresAt := none, lastHeartbeatAt := none, startedAt := none
    providerStartedAt := none, completedAt := none, cancelRequestedAt := none
    createdAt := now, updatedAt := now }

/-- `_started_event`, as the row `_append_event` writes. -/
def startedEvent (now requestDbId requestId assistantId : Nat) (a : Acceptance) :
    StreamEvent :=
  { tenantId := a.tenantId, inferenceRequestId := requestDbId, sequenceNo := 0
    body := .started, requestId, conversationId := a.conversationId
    messageId := assistantId, createdAt := now }

/-- The `chat.inference.execute` command of an acceptance. -/
def executeCommand (version requestId assistantId reservationId : Nat)
    (a : Acceptance) : OutboxEvent :=
  { tenantId := a.tenantId, aggregateType := "conversation"
    aggregateId := a.conversationId, eventType := "chat.inference.execute"
    aggregateVersion := version, requestId, conversationId := a.conversationId
    messageId := assistantId, modelDeploymentId := a.deploymentId, reservationId }

/-- `_append_request_transaction`: the messages, the queued request with
its accepted price, the hold, the busy pointer, the `started` event and
the outbox command, all or nothing. -/
def appendRequestTransaction (now : Nat) (catalog : Catalog.CatalogRows)
    (book : Catalog.PriceBook) (a : Acceptance) (s : Store) :
    Except ChatError (ChatRequestRecord × Store) := do
  let (messages, assistantId) := appendMessages now s a
  let decision ← orRaise (Catalog.resolveAcceptedDecision catalog book
    a.productModelId a.deploymentId now) .modelUnavailable
  let id := s.requests.nextId
  let requestId := s.nextUuid
  raiseIf (violatesActiveIndex s a.tenantId a.conversationId = true)
    (.integrity "uq_inference_requests_active_conversation")
  let (reservation, billing) ← (Billing.reserveInTransaction now a.tenantId
    "chat_inference" id decision.price (now + seconds (15 * 60))
    s.billing).mapError .billing
  raiseIf ((messages.get assistantId).any (fun m =>
    m.tenantId == a.tenantId && m.conversationId == a.conversationId) = false)
    (.infrastructure "CONVERSATION_UNAVAILABLE")
  let conversation ← orRaise (s.conversations.get a.conversationId)
    .conversationNotFound
  let version := conversation.version + 1
  let request := acceptedRequest now requestId assistantId decision.priceVersionId
    reservation.reservationId a
  return (requestRecord id request,
    { s with
      messages := messages.modify assistantId fun m => { m with requestId := some id }
      requests := s.requests.insert request
      billing
      conversations := s.conversations.modify a.conversationId fun c =>
        { c with activeInferenceRequestId := some id, version, updatedAt := now }
      events := s.events.insert (startedEvent now id requestId assistantId a)
      outbox := s.outbox.insert
        (executeCommand version requestId assistantId reservation.reservationId a)
      nextUuid := s.nextUuid + 1 })

/-- `create`. -/
def create (now : Nat) (catalog : Catalog.CatalogRows)
    (tenantId actorUserId : Nat) (productModelKey clientRequestId requestHash : String)
    (s : Store) : Except ChatError (Nat × Bool × Store) := do
  let (idemId, idem, inserted, s) ← claimIdempotency s
    ⟨tenantId, actorUserId, .create, clientRequestId, requestHash⟩
  if inserted = false then do
    let id ← orRaise idem.resourceId .idempotencyInProgress
    let _ ← orRaise (lockConversation s tenantId actorUserId id)
      (.infrastructure "CONVERSATION_UNAVAILABLE")
    return (id, true, s)
  else do
    let (productId, _) ← orRaise (catalog.products.entries.find? fun e =>
        e.2.modelKey == productModelKey && e.2.modality == .text
          && e.2.taskType == .chat && e.2.status == .active
          && Catalog.entitled catalog tenantId e.1) .modelNotFound
    let id := s.conversations.nextId
    let row : Conversation :=
      { tenantId, createdByUserId := actorUserId, productModelId := productId
        activeInferenceRequestId := none, version := 0, updatedAt := now }
    let s := { s with conversations := s.conversations.insert row }
    return (id, false, completeIdempotency s idemId id)

/-- `submit`. -/
def submit (now : Nat) (catalog : Catalog.CatalogRows) (book : Catalog.PriceBook)
    (tenantId actorUserId conversationId : Nat)
    (content clientRequestId requestHash : String) (s : Store) :
    Except ChatError (AcceptedChatRequest × Store) := do
  let (idemId, idem, inserted, s) ← claimIdempotency s
    ⟨tenantId, actorUserId, .send, clientRequestId, requestHash⟩
  if inserted = false then do
    let accepted ← replayRequest s tenantId actorUserId idem
    return (accepted, s)
  else do
    let conversation ← orRaise
      (lockConversation s tenantId actorUserId conversationId) .conversationNotFound
    raiseIf (conversation.activeInferenceRequestId ≠ none) .conversationBusy
    let deploymentId ← resolveRoute catalog tenantId conversation.productModelId
    let (request, s) ← appendRequestTransaction now catalog book
      { tenantId, actorUserId, conversationId
        productModelId := conversation.productModelId, deploymentId
        userContent := some content, assistantMessageId := none, requestHash
        parentRequestId := none } s
    return ({ request, replayed := false },
      completeIdempotency s idemId request.requestDbId)

/-- `regenerate`: answer once more into the latest assistant message. -/
def regenerate (now : Nat) (catalog : Catalog.CatalogRows) (book : Catalog.PriceBook)
    (tenantId actorUserId conversationId messageId : Nat)
    (clientRequestId requestHash : String) (s : Store) :
    Except ChatError (AcceptedChatRequest × Store) := do
  let (idemId, idem, inserted, s) ← claimIdempotency s
    ⟨tenantId, actorUserId, .regenerate, clientRequestId, requestHash⟩
  if inserted = false then do
    let accepted ← replayRequest s tenantId actorUserId idem
    return (accepted, s)
  else do
    let conversation ← orRaise
      (lockConversation s tenantId actorUserId conversationId) .conversationNotFound
    raiseIf (conversation.activeInferenceRequestId ≠ none) .conversationBusy
    let target ← orRaise ((s.messages.get messageId).filter fun m =>
      m.tenantId == tenantId && m.conversationId == conversationId) .messageNotLatest
    let (latestId, _) ← orRaise (latestMessage s tenantId conversationId)
      .messageNotLatest
    raiseIf (latestId ≠ messageId ∨ target.role ≠ .assistant) .messageNotLatest
    let deploymentId ← resolveRoute catalog tenantId conversation.productModelId
    let s := { s with messages := s.messages.modify messageId fun m =>
      { m with status := .streaming, content := "", updatedAt := now } }
    let (request, s) ← appendRequestTransaction now catalog book
      { tenantId, actorUserId, conversationId
        productModelId := conversation.productModelId, deploymentId
        userContent := none, assistantMessageId := some messageId, requestHash
        parentRequestId := target.requestId } s
    return ({ request, replayed := false },
      completeIdempotency s idemId request.requestDbId)

-- ================================================================= stop

/-- `_events_in_transaction`: the request's events after a cursor, by
sequence. -/
def eventsAfter (s : Store) (tenantId requestDbId : Nat) (after : Int) :
    List StreamEvent :=
  ((s.log requestDbId).filter fun e => e.tenantId == tenantId && after < e.sequenceNo)
    |>.insertionSort fun a b => a.sequenceNo ≤ b.sequenceNo

/-- `_append_terminal_event` for a `stopped` event: nothing when the log
already has a terminal event. -/
def appendStoppedEvent (now : Nat) (s : Store) (requestDbId : Nat)
    (r : InferenceRequest) : Store × Int :=
  let rows := eventsAfter s r.tenantId requestDbId (-1)
  if rows.any (fun e => e.body.terminal) = true then (s, r.lastEventSequence)
  else
    let sequence := match rows.getLast? with
      | some e => e.sequenceNo + 1
      | none => 0
    let event : StreamEvent :=
      { tenantId := r.tenantId, inferenceRequestId := requestDbId
        sequenceNo := sequence, body := .stopped, requestId := r.requestId
        conversationId := r.conversationId, messageId := r.messageId
        createdAt := now }
    ({ s with events := s.events.insert event }, sequence)

/-- `_clear_active_on_row`: the compare-and-set that frees the
conversation; under the row lock it cannot miss. -/
def clearActiveOnRow (now : Nat) (s : Store) (conversationId requestDbId : Nat) :
    Except ChatError Store := do
  let c ← orRaise ((s.conversations.get conversationId).filter fun c =>
      c.activeInferenceRequestId == some requestDbId)
    (.infrastructure "CONVERSATION_STATE_CONFLICT")
  return { s with conversations := s.conversations.modify conversationId fun row =>
    { row with activeInferenceRequestId := none, version := c.version + 1
               updatedAt := now } }

/-- `_TERMINAL_REQUEST_STATUSES`. -/
def terminalRequestStatus : RequestStatus → Bool
  | .succeeded => true
  | .failed => true
  | .cancelled => true
  | .stopped => true
  | _ => false

/-- The writes of a stop on a request no worker has claimed. -/
def stopQueued (now : Nat) (s : Store) (conversationId requestDbId : Nat)
    (r : InferenceRequest) : Except ChatError (Int × Store) := do
  let messages := match messageForRequest s r.tenantId r with
    | some m =>
        if m.status = .streaming then
          s.messages.modify r.messageId fun m =>
            { m with status := .stopped, updatedAt := now }
        else s.messages
    | none => s.messages
  let (s, sequence) := appendStoppedEvent now { s with messages } requestDbId r
  let s := { s with requests := s.requests.modify requestDbId fun r =>
    { r with status := .stopped, completedAt := some now, updatedAt := now
             lastEventSequence := sequence } }
  let s ← clearActiveOnRow now s conversationId requestDbId
  return (sequence, s)

/-- `stop`. -/
def stop (now tenantId actorUserId conversationId requestId : Nat) (s : Store) :
    Except ChatError (StopResult × Store) := do
  let conversation ← orRaise
    (lockConversation s tenantId actorUserId conversationId) .conversationNotFound
  let (id, r) ← orRaise (s.requests.find fun r => r.tenantId == tenantId
      && r.actorUserId == some actorUserId && r.conversationId == conversationId
      && r.requestId == requestId) .conversationNotFound
  if terminalRequestStatus r.status = true then do
    let s ← if conversation.activeInferenceRequestId = some id then
        clearActiveOnRow now s conversationId id
      else pure s
    return ({ requestId, status := r.status, changed := false
              lastEventSequence := r.lastEventSequence }, s)
  else do
    raiseIf (conversation.activeInferenceRequestId ≠ some id) .conversationBusy
    if r.status = .queued then do
      let (sequence, s) ← stopQueued now s conversationId id r
      return ({ requestId, status := .stopped, changed := true
                lastEventSequence := sequence }, s)
    else
      -- a running provider call is cancelled by the worker: this only
      -- records the intent
      return ({ requestId, status := .stopRequested, changed := true
                lastEventSequence := r.lastEventSequence },
        { s with requests := s.requests.modify id fun r =>
          { r with status := .stopRequested, cancelRequestedAt := some now
                   updatedAt := now } })

end Mosaic.Chat
