/-
The durable rows of the chat subsystem (app/infrastructure/models.py):
conversations, messages, inference requests, their stream events, the
idempotency records of acceptance and the outbox commands.

# Identifiers

A row's primary key is its position in its table (`Lib.Table`). The
public `request_id` of a request and the lease token of a claim are
fresh UUIDs: both come from the counter `nextUuid`, which only grows.

# Columns left out

`conversation_id` and `message_id` of an inference request are nullable
in the schema, but the one statement that inserts a request sets both,
nothing clears them and no row they point at is ever deleted; they are
plain keys here. Columns no operation reads back (titles, metadata,
latency) are absent.
-/
import Mosaic.Billing.Service
import Mosaic.Catalog.Decision

namespace Mosaic.Chat

open Lib

/-- Instants are microseconds; leases are given in seconds. -/
def seconds (n : Nat) : Nat := n * 1000000

-- ================================================================ enums

inductive RequestStatus
  | queued
  | running
  | submittedUnknown
  | stopped
  | stopRequested
  | succeeded
  | failed
  | cancelled
deriving Repr, DecidableEq

inductive MessageRole
  | system
  | user
  | assistant
  | tool
deriving Repr, DecidableEq

inductive MessageStatus
  | accepted
  | streaming
  | completed
  | failed
  | stopped
deriving Repr, DecidableEq

inductive IdempotencyOperation
  | create
  | send
  | regenerate
deriving Repr, DecidableEq

-- ================================================================= rows

/-- A row of `conversations`. -/
structure Conversation where
  tenantId : Nat
  createdByUserId : Nat
  productModelId : Nat
  activeInferenceRequestId : Option Nat
  version : Nat
  updatedAt : Nat
deriving Repr, DecidableEq

/-- A row of `messages`; `content` is the `text` of its text object. -/
structure Message where
  tenantId : Nat
  conversationId : Nat
  sequenceNo : Nat
  role : MessageRole
  content : String
  status : MessageStatus
  authorUserId : Option Nat
  requestId : Option Nat
  createdAt : Nat
  updatedAt : Nat
deriving Repr, DecidableEq

/-- The columns `_safe_details` keeps of a sanitised error. -/
structure ErrorDetails where
  code : Option String
  phase : Option String
  retryable : Option Bool
  statusCode : Option Int
  requestId : Option String
deriving Repr, DecidableEq

/-- A row of `inference_requests`. -/
structure InferenceRequest where
  tenantId : Nat
  requestId : Nat
  actorUserId : Option Nat
  conversationId : Nat
  messageId : Nat
  modelDeploymentId : Nat
  acceptedPriceVersionId : Nat
  billingReservationId : Option Nat
  status : RequestStatus
  providerRequestId : Option String
  requestHash : String
  inputTokens : Nat
  outputTokens : Nat
  errorCode : Option String
  sanitizedErrorDetails : Option ErrorDetails
  terminalReason : Option String
  lastEventSequence : Int
  parentRequestId : Option Nat
  workerId : Option String
  leaseToken : Option Nat
  leaseExpiresAt : Option Nat
  lastHeartbeatAt : Option Nat
  startedAt : Option Nat
  providerStartedAt : Option Nat
  completedAt : Option Nat
  cancelRequestedAt : Option Nat
  createdAt : Nat
  updatedAt : Nat
deriving Repr, DecidableEq

/-- The `error` object of a `failed` event. The contract has an optional
`details`, which no writer sets. -/
structure EventError where
  code : String
  message : String
  requestId : Nat
  retryable : Bool
deriving Repr, DecidableEq

/-- `event_type` with the part of the payload that depends on it. -/
inductive EventBody
  | started
  | delta (text : String)
  | completed (content : String)
  | stopped
  | failed (error : EventError)
deriving Repr, DecidableEq

/-- `event_type IN ('completed', 'stopped', 'failed')`. -/
def EventBody.terminal : EventBody → Bool
  | .started => false
  | .delta _ => false
  | .completed _ => true
  | .stopped => true
  | .failed _ => true

/-- A row of `chat_stream_events`; the three ids are the payload's. -/
structure StreamEvent where
  tenantId : Nat
  inferenceRequestId : Nat
  sequenceNo : Int
  body : EventBody
  requestId : Nat
  conversationId : Nat
  messageId : Nat
  createdAt : Nat
deriving Repr, DecidableEq

/-- A row of `idempotency_records`; a record is `completed` when it
names its resource. -/
structure IdempotencyRecord where
  tenantId : Nat
  actorUserId : Nat
  operation : IdempotencyOperation
  key : String
  requestHash : String
  resourceId : Option Nat
deriving Repr, DecidableEq

/-- A pending row of `outbox_events` as an acceptance writes it. -/
structure OutboxEvent where
  tenantId : Nat
  aggregateType : String
  aggregateId : Nat
  eventType : String
  aggregateVersion : Nat
  requestId : Nat
  conversationId : Nat
  messageId : Nat
  modelDeploymentId : Nat
  reservationId : Nat
deriving Repr, DecidableEq

-- ================================================================ store

/-- The chat tables and the billing tables they are settled in. -/
structure Store where
  conversations : Table Conversation
  messages : Table Message
  requests : Table InferenceRequest
  events : Table StreamEvent
  idempotency : Table IdempotencyRecord
  outbox : Table OutboxEvent
  billing : Billing.Db
  nextUuid : Nat
deriving Repr, DecidableEq

/-- What an operation of either repository can raise. -/
inductive ChatError
  | conversationNotFound
  | modelNotFound
  | modelUnavailable
  | conversationBusy
  | messageNotLatest
  | idempotencyConflict
  | idempotencyInProgress
  | infrastructure (code : String)
  | integrity (index : String)
  | value (message : String)
  | runtime (message : String)
  | billing (error : Billing.BillingError)
deriving Repr, DecidableEq

/-- The statuses of `uq_inference_requests_active_conversation`. -/
def indexedStatus : RequestStatus → Bool
  | .queued => true
  | .running => true
  | .submittedUnknown => true
  | .stopRequested => true
  | _ => false

/-- The partial unique index refuses a second indexed request of one
conversation. -/
def violatesActiveIndex (s : Store) (tenantId conversationId : Nat) : Bool :=
  s.requests.rows.any fun r =>
    r.tenantId == tenantId && r.conversationId == conversationId
      && indexedStatus r.status

/-- `uq_inference_requests_provider_request`: another request of the
deployment already carries this provider id. -/
def providerRequestTaken (s : Store) (requestDbId : Nat) (r : InferenceRequest)
    (providerRequestId : Option String) : Bool :=
  providerRequestId.isSome && s.requests.entries.any fun e =>
    e.1 != requestDbId && e.2.tenantId == r.tenantId
      && e.2.modelDeploymentId == r.modelDeploymentId
      && e.2.providerRequestId == providerRequestId

/-- The event log of a request, in the order it was written. -/
def Store.log (s : Store) (requestDbId : Nat) : List StreamEvent :=
  s.events.rows.filter fun e => e.inferenceRequestId == requestDbId

/-- What the billing service reads of the accepted requests. -/
def Store.sources (s : Store) (book : Catalog.PriceBook) : Billing.Sources :=
  { inferencePriceVersionId := fun tenantId id =>
      ((s.requests.get id).filter fun r => r.tenantId == tenantId).map
        (·.acceptedPriceVersionId)
    generationPriceVersionId := fun _ _ => none
    priceVersions := book }

end Mosaic.Chat
