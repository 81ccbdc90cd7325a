/-
The fenced execution repository of the chat worker
(app/conversations/execution_repository.py).

# One transaction per transition

Each method is one transaction over the locked request row, its message
and its conversation. Every worker-side write is fenced by the lease
token the claim issued; a write that misses its compare-and-set returns
`false` (or `none`) and changes nothing.

# Clocks

A method reads the clock when it is called and, for the fenced writes,
once more under the row lock (`_locked_writable_request`). The two
readings are the two arguments `now` and `lockedNow`; nothing here
assumes an order between them.
-/
import Mosaic.Chat.Repository
import Mosaic.Providers.Stream

namespace Mosaic.Chat

open Lib Providers

-- ============================================================== records

/-- `ConversationMessageRecord`, as `_history` loads it. -/
structure HistoryMessage where
  messageId : Nat
  role : MessageRole
  content : String
  status : MessageStatus
  createdAt : Nat
deriving Repr, DecidableEq

/-- `ChatDeploymentRecord`. -/
structure ChatDeployment where
  deploymentId : Nat
  productModelId : String
  providerModelId : String
  concurrencyLimit : Nat
  routingConfig : List (String × Json)

/-- `ChatExecutionRecord`: the worker's input and its lease snapshot. -/
structure Execution where
  requestDbId : Nat
  requestId : Nat
  conversationId : Nat
  messageId : Nat
  tenantId : Nat
  productModelId : String
  deployment : ChatDeployment
  history : List HistoryMessage
  actorUserId : Option Nat
  status : RequestStatus
  lastEventSequence : Int
  workerId : Option String
  leaseToken : Option Nat
  leaseExpiresAt : Option Nat
  providerRequestId : Option String
  reservationId : Option Nat

/-- `ChatLeaseCheck`. -/
structure LeaseCheck where
  leaseValid : Bool
  stopRequested : Bool
deriving Repr, DecidableEq

/-- `_billing_usage`, and the usage `mark_completed` prices. -/
def billingUsage (u : TokenUsage) : Billing.BillingUsage :=
  { inputTokens := u.promptTokens, outputTokens := u.completionTokens
    billableUnits := u.totalTokens }

-- ================================================================ claim

/-- The catalog side of the claim query: the product, deployment and
trusted endpoint a queued request runs on. -/
def trustedRoute (catalog : Catalog.CatalogRows) (c : Conversation)
    (r : InferenceRequest) :
    Option (Catalog.ProductModel × Catalog.ModelDeployment) := do
  let p ← catalog.products.get c.productModelId
  let d ← catalog.deployments.get r.modelDeploymentId
  let e ← catalog.endpoints.get d.providerEndpointId
  if p.status = .active ∧ p.modality = .text ∧ p.taskType = .chat
      ∧ d.status = .active ∧ e.status = .active
      ∧ e.providerName = "bailian" ∧ e.protocol = .openaiCompatible
      ∧ e.secretRef = "env:DASHSCOPE_API_KEY" then
    some (p, d)
  else none

/-- The joined row of the claim query, if a request qualifies. -/
def claimRow (s : Store) (catalog : Catalog.CatalogRows)
    (tenantId requestId : Option Nat) (r : InferenceRequest) :
    Option (Conversation × Catalog.ProductModel × Catalog.ModelDeployment) :=
  if r.status = .queued ∧ tenantId.all (· == r.tenantId) = true
      ∧ requestId.all (· == r.requestId) = true then do
    let c ← (s.conversations.get r.conversationId).filter
      fun c => c.tenantId == r.tenantId
    let (p, d) ← trustedRoute catalog c r
    return (c, p, d)
  else none

/-- The oldest claimable request that is not locked by another
transaction (`FOR UPDATE SKIP LOCKED`). -/
def claimCandidate (s : Store) (catalog : Catalog.CatalogRows) (locked : Nat → Bool)
    (tenantId requestId : Option Nat) : Option (Nat × InferenceRequest) :=
  (s.requests.ordered
    (fun a b => a.2.createdAt < b.2.createdAt
      || (a.2.createdAt == b.2.createdAt && a.1 ≤ b.1))
    fun e => (claimRow s catalog tenantId requestId e.2).isSome
      && !locked e.1).head?

/-- `_history`. -/
def history (s : Store) (tenantId conversationId : Nat) : List HistoryMessage :=
  (s.messages.ordered (fun a b => a.2.sequenceNo ≤ b.2.sequenceNo) fun e =>
    e.2.tenantId == tenantId && e.2.conversationId == conversationId).map fun e =>
      { messageId := e.1, role := e.2.role, content := e.2.content
        status := e.2.status, createdAt := e.2.createdAt }

/-- The row a claim leaves behind. -/
def claimedRow (now leaseSeconds token : Nat) (workerId : String)
    (r : InferenceRequest) : InferenceRequest :=
  { r with
    status := .running, workerId := some (PyStr.strip workerId)
    leaseToken := some token, leaseExpiresAt := some (now + seconds leaseSeconds)
    lastHeartbeatAt := some now, startedAt := r.startedAt <|> some now
    updatedAt := now }

/-- `claim_queued`. -/
def claimQueued (now : Nat) (catalog : Catalog.CatalogRows) (locked : Nat → Bool)
    (workerId : String) (leaseSeconds : Nat) (tenantId requestId : Option Nat)
    (s : Store) : Except ChatError (Option Execution × Store) := do
  raiseIf (PyStr.blank workerId = true ∨ PyStr.len workerId > 128)
    (.value "worker_id must be 1 to 128 characters")
  raiseIf (leaseSeconds < 1) (.value "lease_seconds must be positive")
  match claimCandidate s catalog locked tenantId requestId with
  | none => return (none, s)
  | some (id, r) =>
      match claimRow s catalog tenantId requestId r with
      | none => return (none, s)
      | some (_, product, deployment) =>
          let token := s.nextUuid
          let row := claimedRow now leaseSeconds token workerId r
          return (some
            { requestDbId := id, requestId := r.requestId
              conversationId := r.conversationId, messageId := r.messageId
              tenantId := r.tenantId, productModelId := product.modelKey
              deployment :=
                { deploymentId := r.modelDeploymentId
                  productModelId := product.modelKey
                  providerModelId := deployment.providerModelId
                  concurrencyLimit := deployment.concurrencyLimit
                  routingConfig := deployment.routingConfig }
              history := history s r.tenantId r.conversationId
              actorUserId := r.actorUserId, status := .running
              lastEventSequence := r.lastEventSequence, workerId := row.workerId
              leaseToken := some token, leaseExpiresAt := row.leaseExpiresAt
              providerRequestId := r.providerRequestId
              reservationId := r.billingReservationId },
            { s with requests := s.requests.modify id fun _ => row
                     nextUuid := s.nextUuid + 1 })

-- ============================================================= fencing

/-- `_locked_request`: the row the execution's lease token still owns. -/
def lockedRequest (s : Store) (e : Execution) : Option InferenceRequest :=
  (s.requests.get e.requestDbId).filter fun r =>
    r.tenantId == e.tenantId && r.requestId == e.requestId
      && e.leaseToken.isSome && r.leaseToken == e.leaseToken

/-- `_locked_writable_request`. -/
def lockedWritableRequest (s : Store) (lockedNow : Nat) (e : Execution)
    (expectedSequence : Int) (statuses : List RequestStatus) :
    Option InferenceRequest :=
  (lockedRequest s e).filter fun r =>
    statuses.contains r.status && r.lastEventSequence == expectedSequence - 1
      && r.leaseExpiresAt.any fun t => lockedNow < t

/-- `_locked_message`. -/
def lockedMessage (s : Store) (e : Execution) : Option Message :=
  (s.messages.get e.messageId).filter fun m =>
    m.tenantId == e.tenantId && m.conversationId == e.conversationId
      && m.requestId == some e.requestDbId

/-- `_locked_conversation`. -/
def lockedConversation (s : Store) (e : Execution) : Option Conversation :=
  (s.conversations.get e.conversationId).filter fun c =>
    c.tenantId == e.tenantId
      && c.activeInferenceRequestId == some e.requestDbId

/-- `_provider_id_is_coherent`. -/
def providerIdIsCoherent (r : InferenceRequest) (providerRequestId : Option String) :
    Bool :=
  providerRequestId.isNone || r.providerRequestId.isNone
    || r.providerRequestId == providerRequestId

/-- `_RUNNING_STATUSES`. -/
def runningStatuses : List RequestStatus := [.running, .stopRequested]

/-- `_clear_active` of a conversation whose pointer was just matched. -/
def clearActive (now : Nat) (conversations : Table Conversation)
    (conversationId : Nat) : Table Conversation :=
  conversations.modify conversationId fun c =>
    { c with activeInferenceRequestId := none, version := c.version + 1
             updatedAt := now }

/-- `_event`, with the payload's ids from the execution record. -/
def executionEvent (now : Nat) (e : Execution) (r : InferenceRequest)
    (sequence : Int) (body : EventBody) : StreamEvent :=
  { tenantId := r.tenantId, inferenceRequestId := e.requestDbId
    sequenceNo := sequence, body, requestId := r.requestId
    conversationId := e.conversationId, messageId := e.messageId, createdAt := now }

-- ======================================================== before submit

/-- `requeue_claimed`. -/
def requeueClaimed (now : Nat) (e : Execution) (s : Store) : Bool × Store :=
  match (lockedRequest s e).filter fun r => r.status == .running with
  | none => (false, s)
  | some _ => (true,
      { s with requests := s.requests.modify e.requestDbId fun r =>
        { r with status := .queued, workerId := none, leaseToken := none
                 leaseExpiresAt := none, lastHeartbeatAt := none
                 updatedAt := now } })

/-- `check_lease_and_stop`: the heartbeat, and the worker's only view of
a stop. -/
def checkLeaseAndStop (leaseExtensionSeconds now : Nat) (e : Execution) (s : Store) :
    LeaseCheck × Store :=
  match (lockedRequest s e).filter fun r => runningStatuses.contains r.status
      && r.leaseExpiresAt.any fun t => now < t with
  | none => ({ leaseValid := false, stopRequested := false }, s)
  | some r =>
      ({ leaseValid := true, stopRequested := r.status == .stopRequested },
        { s with requests := s.requests.modify e.requestDbId fun r =>
          { r with lastHeartbeatAt := some now
                   leaseExpiresAt := some (now + seconds leaseExtensionSeconds)
                   updatedAt := now } })

-- ======================================================== stream writes

/-- `append_delta`. -/
def appendDelta (leaseExtensionSeconds now lockedNow : Nat) (e : Execution)
    (expectedSequence : Int) (delta : String) (providerRequestId : Option String)
    (s : Store) : Except ChatError (Option Int × Store) := do
  raiseIf (delta = "") (.value "delta must not be empty")
  match (lockedWritableRequest s lockedNow e expectedSequence [.running]).filter
      fun r => providerIdIsCoherent r providerRequestId with
  | none => return (none, s)
  | some r =>
      match (lockedMessage s e).filter fun m => m.status == .streaming with
      | none => return (none, s)
      | some _ => do
          raiseIf (providerRequestTaken s e.requestDbId r
              (orElse providerRequestId r.providerRequestId) = true)
            (.integrity "uq_inference_requests_provider_request")
          return (some expectedSequence,
            { s with
              messages := s.messages.modify e.messageId fun m =>
                { m with content := m.content ++ delta, updatedAt := now }
              requests := s.requests.modify e.requestDbId fun r =>
                { r with
                  providerRequestId := orElse providerRequestId r.providerRequestId
                  providerStartedAt := r.providerStartedAt <|> some now
                  lastEventSequence := expectedSequence
                  lastHeartbeatAt := some now
                  leaseExpiresAt := some (now + seconds leaseExtensionSeconds)
                  updatedAt := now }
              events := s.events.insert
                (executionEvent now e r expectedSequence (.delta delta)) })

/-- `_price_for_request`; the accepted price columns are always set. -/
def priceForRequest (book : Catalog.PriceBook) (r : InferenceRequest) :
    Except ChatError Billing.PriceSnapshot :=
  orRaise (book r.acceptedPriceVersionId)
    (.runtime "accepted chat price snapshot is missing")

/-- The usage table after a completion: a row that exists is kept, else
the priced usage is recorded. -/
def recordUsage (usageRecords : Table Billing.UsageRecord) (e : Execution)
    (providerRequestId : Option String) (price : Billing.PriceSnapshot)
    (usage : TokenUsage) (charge : Billing.Money) :
    Except ChatError (Table Billing.UsageRecord) :=
  match usageRecords.find fun u => u.tenantId == e.tenantId
      && u.source == .inferenceRequest e.requestDbId with
  | some _ => return usageRecords
  | none => do
      let label ← (Billing.pricingVersion price).mapError .billing
      return usageRecords.insert
        { tenantId := e.tenantId, actorUserId := e.actorUserId
          source := .inferenceRequest e.requestDbId
          modelDeploymentId := e.deployment.deploymentId, modality := "text"
          modelKey := e.productModelId, providerRequestId, providerTaskId := none
          pricingVersion := label, currency := price.currency
          usage := billingUsage usage, chargeAmountMinor := charge.amountMinor }

/-- `mark_completed`. -/
def markCompleted (book : Catalog.PriceBook) (now lockedNow : Nat) (e : Execution)
    (expectedSequence : Int) (content : String) (providerRequestId : Option String)
    (usage : TokenUsage) (s : Store) : Except ChatError (Bool × Store) :=
  match (lockedWritableRequest s lockedNow e expectedSequence [.running]).filter
      fun r => providerIdIsCoherent r providerRequestId with
  | none => return (false, s)
  | some r =>
      match lockedMessage s e, lockedConversation s e with
      | some _, some _ => do
          let price ← priceForRequest book r
          let charge ← (Billing.chargeForUsage price (billingUsage usage)).mapError .billing
          raiseIf (providerRequestTaken s e.requestDbId r
              (orElse providerRequestId r.providerRequestId) = true)
            (.integrity "uq_inference_requests_provider_request")
          let usageRecords ← recordUsage s.billing.usageRecords e providerRequestId
            price usage charge
          return (true,
            { s with
              messages := s.messages.modify e.messageId fun m =>
                { m with content, status := .completed, updatedAt := now }
              requests := s.requests.modify e.requestDbId fun r =>
                { r with
                  status := .succeeded
                  providerRequestId := orElse providerRequestId r.providerRequestId
                  inputTokens := usage.promptTokens
                  outputTokens := usage.completionTokens
                  lastEventSequence := expectedSequence, completedAt := some now
                  terminalReason := some "provider_completed"
                  leaseToken := none, leaseExpiresAt := none, updatedAt := now }
              events := s.events.insert
                (executionEvent now e r expectedSequence (.completed content))
              conversations := clearActive now s.conversations e.conversationId
              billing := { s.billing with usageRecords } })
      | _, _ => return (false, s)

/-- The two event types a transition without usage ends with. -/
inductive TerminalEvent
  | stopped
  | failed
deriving Repr, DecidableEq

/-- The parameters of `_terminal_without_usage`. -/
structure Terminal where
  content : String
  eventType : TerminalEvent
  requestStatus : RequestStatus
  messageStatus : MessageStatus
  errorCode : Option String
  errorDetails : Option ErrorDetails
  providerRequestId : Option String
  statuses : List RequestStatus := runningStatuses
  terminalReason : Option String := none

/-- The event it writes: `failed` carries the error the client shows. -/
def Terminal.body (t : Terminal) (r : InferenceRequest) : EventBody :=
  match t.eventType with
  | .stopped => .stopped
  | .failed =>
      .failed { code := (orElse t.errorCode none).getD "CHAT_PROVIDER_ERROR"
                message := "模型响应未能完成", requestId := r.requestId
                retryable := (t.errorDetails.bind (·.retryable)).getD false }

/-- `terminal_reason or event_type`. -/
def Terminal.reason (t : Terminal) : String :=
  (orElse t.terminalReason none).getD (match t.eventType with
    | .stopped => "stopped"
    | .failed => "failed")

/-- `_terminal_without_usage`. -/
def terminalWithoutUsage (now lockedNow : Nat) (e : Execution)
    (expectedSequence : Int) (t : Terminal) (s : Store) :
    Except ChatError (Bool × Store) :=
  match (lockedWritableRequest s lockedNow e expectedSequence t.statuses).filter
      fun r => providerIdIsCoherent r t.providerRequestId with
  | none => return (false, s)
  | some r =>
      match lockedMessage s e, lockedConversation s e with
      | some _, some _ => do
          raiseIf (providerRequestTaken s e.requestDbId r
              (orElse t.providerRequestId r.providerRequestId) = true)
            (.integrity "uq_inference_requests_provider_request")
          return (true,
            { s with
              messages := s.messages.modify e.messageId fun m =>
                { m with
                  content := if t.content = "" then m.content else t.content
                  status := t.messageStatus, updatedAt := now }
              requests := s.requests.modify e.requestDbId fun r =>
                { r with
                  status := t.requestStatus
                  providerRequestId := orElse t.providerRequestId r.providerRequestId
                  errorCode := t.errorCode, sanitizedErrorDetails := t.errorDetails
                  lastEventSequence := expectedSequence, completedAt := some now
                  terminalReason := some t.reason
                  leaseToken := none, leaseExpiresAt := none, updatedAt := now }
              events := s.events.insert
                (executionEvent now e r expectedSequence (t.body r))
              conversations := clearActive now s.conversations e.conversationId })
      | _, _ => return (false, s)

/-- `mark_stopped`. -/
def markStopped (now lockedNow : Nat) (e : Execution) (expectedSequence : Int)
    (content : String) (s : Store) : Except ChatError (Bool × Store) :=
  terminalWithoutUsage now lockedNow e expectedSequence
    { content, eventType := .stopped, requestStatus := .stopped
      messageStatus := .stopped, errorCode := none, errorDetails := none
      providerRequestId := e.providerRequestId } s

/-- `mark_failed`. -/
def markFailed (now lockedNow : Nat) (e : Execution) (expectedSequence : Int)
    (errorCode : String) (errorDetails : Option ErrorDetails)
    (providerRequestId : Option String) (s : Store) :
    Except ChatError (Bool × Store) :=
  terminalWithoutUsage now lockedNow e expectedSequence
    { content := "", eventType := .failed, requestStatus := .failed
      messageStatus := .failed, errorCode := some errorCode, errorDetails
      providerRequestId } s

/-- `mark_submitted_unknown`. -/
def markSubmittedUnknown (now lockedNow : Nat) (e : Execution)
    (providerRequestId : Option String) (errorCode : String) (s : Store) :
    Except ChatError (Bool × Store) :=
  terminalWithoutUsage now lockedNow e (e.lastEventSequence + 1)
    { content := "", eventType := .failed, requestStatus := .submittedUnknown
      messageStatus := .failed, errorCode := some errorCode
      errorDetails := some { code := some errorCode, phase := some "provider"
                             retryable := some false, statusCode := none
                             requestId := none }
      providerRequestId, statuses := [.running]
      terminalReason := some "provider_submission_unknown" } s

-- ============================================================ reconcile

/-- A row `reconcile_expired_once` selects: its lease is over. -/
def leaseExpired (now : Nat) (r : InferenceRequest) : Bool :=
  (r.status == .running || r.status == .stopRequested)
    && r.leaseExpiresAt.all fun t => t ≤ now

/-- The selected rows, in order. -/
def expiredRequests (s : Store) (now limit : Nat) (locked : Nat → Bool) : List Nat :=
  ((s.requests.ordered
    (fun a b => a.2.updatedAt < b.2.updatedAt
      || (a.2.updatedAt == b.2.updatedAt && a.1 ≤ b.1))
    fun e => leaseExpired now e.2 && !locked e.1).take limit).map (·.1)

/-- The conversation whose pointer still names the request. -/
def pointingConversation (s : Store) (id : Nat) (r : InferenceRequest) :
    Option Conversation :=
  (s.conversations.get r.conversationId).filter fun c =>
    c.tenantId == r.tenantId && c.activeInferenceRequestId == some id

/-- The error of a worker that let its lease run out. -/
def leaseExpiredError (r : InferenceRequest) : EventError :=
  { code := "CHAT_LEASE_EXPIRED", message := "模型响应未能完成"
    requestId := r.requestId, retryable := false }

/-- The loop body of `reconcile_expired_once`: an expired running request
becomes explicitly unknown, an expired stop is honoured. -/
def reconcileExpiredRow (now : Nat) (s : Store) (id : Nat) : Store :=
  match s.requests.get id with
  | none => s
  | some r =>
      match messageForRequest s r.tenantId r, pointingConversation s id r with
      | some _, some _ =>
          let sequence := r.lastEventSequence + 1
          let event := fun body : EventBody =>
            ({ tenantId := r.tenantId, inferenceRequestId := id
               sequenceNo := sequence, body, requestId := r.requestId
               conversationId := r.conversationId, messageId := r.messageId
               createdAt := now } : StreamEvent)
          if r.status = .running then
            { s with
              events := s.events.insert (event (.failed (leaseExpiredError r)))
              messages := s.messages.modify r.messageId fun m =>
                { m with status := .failed, updatedAt := now }
              requests := s.requests.modify id fun r =>
                { r with
                  status := .submittedUnknown
                  errorCode := some "CHAT_LEASE_EXPIRED"
                  sanitizedErrorDetails := some
                    { code := some "CHAT_LEASE_EXPIRED", phase := some "lease"
                      retryable := some false, statusCode := none
                      requestId := none }
                  terminalReason := some "worker_lease_expired_unknown"
                  lastEventSequence := sequence, completedAt := some now
                  leaseToken := none, leaseExpiresAt := none, updatedAt := now }
              conversations := clearActive now s.conversations r.conversationId }
          else
            { s with
              events := s.events.insert (event .stopped)
              messages := s.messages.modify r.messageId fun m =>
                { m with status := .stopped, updatedAt := now }
              requests := s.requests.modify id fun r =>
                { r with
                  status := .stopped, lastEventSequence := sequence
                  completedAt := some now
                  terminalReason := some "stop_reconciled_after_lease_expiry"
                  leaseToken := none, leaseExpiresAt := none, updatedAt := now }
              conversations := clearActive now s.conversations r.conversationId }
      | _, _ => s

/-- `reconcile_expired_once`. -/
def reconcileExpiredOnce (now limit : Nat) (locked : Nat → Bool) (s : Store) :
    Except ChatError Store := do
  raiseIf (limit < 1 ∨ limit > 500)
    (.value "reconciliation limit must be between 1 and 500")
  return (expiredRequests s now limit locked).foldl (reconcileExpiredRow now) s

end Mosaic.Chat
