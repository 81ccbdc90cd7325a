/-
The persistence-agnostic types of the fenced outbox relay
(app/outbox/types.py) and the message it publishes
(app/messaging/rabbitmq.py).

# What is kept

Identifiers are naturals. The grammars of the type names, the error codes
and the phases are kept, since a row that fails one of them takes another
path. `RetryPolicy.delay` is the float arithmetic of
`exponential_backoff_seconds`, which only decides when a row becomes
available again.
-/
import Mosaic.Lib.Checked
import Mosaic.Lib.Json
import Mosaic.Lib.PyStr

namespace Mosaic.Outbox

open Lib

-- ============================================================= grammars

def lowerLetter (c : Char) : Bool := 'a' ≤ c && c ≤ 'z'

def digit (c : Char) : Bool := '0' ≤ c && c ≤ '9'

/-- `_EVENT_TYPE`: `^[a-z][a-z0-9._-]{2,127}$`. -/
def eventTypeValid (s : String) : Bool :=
  match s.toList with
  | [] => false
  | c :: cs =>
      lowerLetter c && 2 ≤ cs.length && cs.length ≤ 127
        && cs.all fun c => lowerLetter c || digit c || c == '.' || c == '_' || c == '-'

/-- `_ERROR_CODE`: `^[A-Z0-9_]{1,120}$`. -/
def errorCodeValid (s : String) : Bool :=
  1 ≤ s.toList.length && s.toList.length ≤ 120
    && s.toList.all fun c => ('A' ≤ c && c ≤ 'Z') || digit c || c == '_'

/-- `_ERROR_PHASE`: `^[a-z_]{1,64}$`. -/
def errorPhaseValid (s : String) : Bool :=
  1 ≤ s.toList.length && s.toList.length ≤ 64
    && s.toList.all fun c => lowerLetter c || c == '_'

-- =============================================================== events

inductive OutboxStatus
  | pending
  | published
  | failed
deriving Repr, DecidableEq

/-- A `ValueError` with its message. -/
structure ValueError where
  message : String
deriving Repr, DecidableEq

/-- An outbox row as a claim hands it out. -/
structure OutboxEvent where
  eventId : Nat
  tenantId : Nat
  aggregateType : String
  aggregateId : Nat
  eventType : String
  aggregateVersion : Nat
  payload : List (String × Json)
  attempts : Nat
  availableAt : Nat
  claimOwner : Option String
  leaseToken : Option Nat
  leaseExpiresAt : Option Nat

/-- `OutboxEvent.__post_init__`; a count is never negative here. -/
def OutboxEvent.check (e : OutboxEvent) : Except ValueError Unit := do
  raiseIf (eventTypeValid e.aggregateType = false) ⟨"aggregate_type is invalid"⟩
  raiseIf (eventTypeValid e.eventType = false) ⟨"event_type is invalid"⟩
  raiseIf (e.aggregateVersion < 1) ⟨"aggregate_version must be positive"⟩
  raiseIf (e.claimOwner.isNone ≠ e.leaseToken.isNone)
    ⟨"claim_owner and lease_token must be provided together"⟩

/-- `require_lease`. -/
def OutboxEvent.requireLease (e : OutboxEvent) : Except ValueError (String × Nat) :=
  match e.claimOwner, e.leaseToken with
  | some owner, some token => .ok (owner, token)
  | _, _ => .error ⟨"outbox event is not claimed"⟩

-- =============================================================== errors

/-- `OutboxErrorDetails`: all that may be written about a failure. -/
structure OutboxErrorDetails where
  code : String
  phase : String
  retryable : Bool
  codeValid : errorCodeValid code = true
  phaseValid : errorPhaseValid phase = true
deriving Repr, DecidableEq

/-- A candidate that fails its grammar gives way to the default. -/
def sanitized (valid : String → Bool) (default : String) (raw : Option String) : String :=
  let candidate := (raw.map PyStr.strip).getD default
  if valid candidate = true then candidate else default

theorem sanitized_valid {valid : String → Bool} {default : String}
    (h : valid default = true) (raw : Option String) :
    valid (sanitized valid default raw) = true := by
  unfold sanitized
  dsimp only
  split
  · next hc => exact hc
  · exact h

/-- `sanitize_error_details` with its defaults. A `code` or `phase` that is
no `str` is absent, and so is a `retryable` that is no `bool`. -/
def sanitizeErrorDetails (code phase : Option String) (retryable : Option Bool) :
    OutboxErrorDetails :=
  { code := sanitized errorCodeValid "OUTBOX_PUBLISH_FAILED" code
    phase := sanitized errorPhaseValid "publish" phase
    retryable := retryable.getD true
    codeValid := sanitized_valid (by decide) code
    phaseValid := sanitized_valid (by decide) phase }

/-- What the relay can see of an exception: its class as far as
`ValueError` goes, and the attributes `code` and `retryable`. -/
structure PublishError where
  isValueError : Bool
  code : Option String
  retryable : Option Bool
deriving Repr, DecidableEq

/-- `error_details_from_exception`. -/
def errorDetailsFromException (error : PublishError) (defaultRetryable : Bool) :
    OutboxErrorDetails :=
  sanitizeErrorDetails error.code (some "publish")
    (some (error.retryable.getD defaultRetryable))

/-- `RetryPolicy`: `delay` is `delay_seconds`, in microseconds. -/
structure RetryPolicy where
  maxAttempts : Nat
  delay : Nat → Nat

def RetryPolicy.shouldRetry (p : RetryPolicy) (attempts : Nat) (retryable : Bool) : Bool :=
  retryable && attempts < p.maxAttempts

-- ============================================================= messages

def CHAT_ROUTING_KEY : String := "chat.inference.execute"

def GENERATION_ROUTING_KEY : String := "generation.accepted"

def VIDEO_GENERATION_ROUTING_KEY : String := "generation.video.accepted"

/-- `_SUPPORTED_ROUTING_KEYS`. -/
def supportedRoutingKey (key : String) : Bool :=
  key == CHAT_ROUTING_KEY || key == GENERATION_ROUTING_KEY
    || key == VIDEO_GENERATION_ROUTING_KEY

/-- `_GENERATION_ROUTING_BY_MODALITY`. -/
def generationRoutingByModality (modality : String) : Option String :=
  if modality = "text" ∨ modality = "image" ∨ modality = "audio" then
    some GENERATION_ROUTING_KEY
  else if modality = "video" then some VIDEO_GENERATION_ROUTING_KEY
  else none

/-- `routing_key_for_outbox_event`. -/
def routingKeyForOutboxEvent (eventType : String) (payload : List (String × Json)) :
    Except ValueError String :=
  if eventType = CHAT_ROUTING_KEY then .ok CHAT_ROUTING_KEY
  else if eventType = GENERATION_ROUTING_KEY then do
    let modality ← orRaise (Json.field payload "modality").str?
      ⟨"generation outbox modality is required for routing"⟩
    orRaise (generationRoutingByModality modality)
      ⟨"generation outbox modality is unsupported"⟩
  else .error ⟨"unsupported outbox event type"⟩

/-- `EventEnvelope`: the body of a message and, as transport metadata, its
route. -/
structure EventEnvelope where
  eventId : Nat
  tenantId : Nat
  aggregateType : String
  aggregateId : Nat
  eventType : String
  aggregateVersion : Nat
  routingKey : String
deriving Repr, DecidableEq

/-- `EventEnvelope.__post_init__`. -/
def EventEnvelope.check (e : EventEnvelope) : Except ValueError Unit := do
  raiseIf (eventTypeValid e.aggregateType = false) ⟨"aggregate_type is invalid"⟩
  raiseIf (eventTypeValid e.eventType = false) ⟨"event_type is invalid"⟩
  raiseIf (e.aggregateVersion < 1) ⟨"aggregate_version must be positive"⟩
  raiseIf (supportedRoutingKey e.routingKey = false) ⟨"routing_key is unsupported"⟩

/-- The envelope the relay builds for a claimed event. -/
def envelopeOf (e : OutboxEvent) : Except ValueError EventEnvelope := do
  let _ ← e.requireLease
  let routingKey ← routingKeyForOutboxEvent e.eventType e.payload
  let envelope : EventEnvelope :=
    { eventId := e.eventId, tenantId := e.tenantId, aggregateType := e.aggregateType
      aggregateId := e.aggregateId, eventType := e.eventType
      aggregateVersion := e.aggregateVersion, routingKey }
  envelope.check
  return envelope

end Mosaic.Outbox
