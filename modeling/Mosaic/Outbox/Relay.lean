/-
`FencedOutboxRelay` (app/outbox/relay.py) as a process, and the world of
several relays over one table.

# A batch

`run_once` claims a batch in one transaction, then publishes and marks
each event in turn. Publishing happens outside any transaction, so other
relays move between the claim, the broker call and the mark, and a batch
can stop at any of these points for good. A `Batch` is such a call with
what it holds; every step takes its reading of the clock, the fate of its
transaction and the answer of the broker from the environment.

# The world

`World` has the table, the batches and the broker's confirms. Rows enter
as the acceptances write them.
-/
import Mosaic.Lib.Db
import Mosaic.Lib.Run
import Mosaic.Outbox.Repository

namespace Mosaic.Outbox

open Lib

-- =============================================================== broker

/-- How a publish to the broker ends. A call that raises may have left its
message with the broker all the same (`stored`). -/
inductive BrokerOutcome
  | confirmed
  /-- The publisher has no exchange yet. -/
  | notStarted
  /-- `AMQPException`, `ConnectionError`, `OSError` or `TimeoutError`. -/
  | unavailable (stored : Bool)
  | raised (error : PublishError) (stored : Bool)
deriving Repr, DecidableEq

/-- The broker has the message. -/
def BrokerOutcome.stores : BrokerOutcome → Bool
  | .confirmed => true
  | .notStarted => false
  | .unavailable stored => stored
  | .raised _ stored => stored

def valueError : PublishError := { isValueError := true, code := none, retryable := none }

/-- `MessagingUnavailable`. -/
def messagingUnavailable (code : String) : PublishError :=
  { isValueError := false, code := some code, retryable := none }

/-- `RabbitMQPublisher.publish`; an envelope always carries its route
here. -/
def publish (outcome : BrokerOutcome) (envelope : EventEnvelope) :
    Except PublishError Unit := do
  raiseIf (supportedRoutingKey envelope.eventType = false) valueError
  raiseIf (outcome = .notStarted) (messagingUnavailable "MESSAGING_NOT_STARTED")
  raiseIf (supportedRoutingKey envelope.routingKey = false) valueError
  match outcome with
  | .unavailable _ => .error (messagingUnavailable "MESSAGING_UNAVAILABLE")
  | .raised error _ => .error error
  | _ => .ok ()

-- ================================================================ relay

/-- `FencedOutboxRelay` after its constructor. -/
structure Relay where
  owner : String
  eventTypes : Option (List String)
  batchSize : Nat
  leaseSeconds : Nat
  policy : RetryPolicy

/-- `FencedOutboxRelay.__init__` with the checks of `RetryPolicy`. -/
def Relay.init (owner : String) (eventTypes : Option (List String))
    (eventType : Option String) (batchSize leaseSeconds : Nat) (policy : RetryPolicy) :
    Except ValueError Relay := do
  raiseIf (policy.maxAttempts < 1) ⟨"max_attempts must be positive"⟩
  raiseIf (PyStr.strip owner = "" ∨ PyStr.len (PyStr.strip owner) > 200)
    ⟨"outbox relay owner must be 1 to 200 characters"⟩
  raiseIf (¬ (1 ≤ batchSize ∧ batchSize ≤ 500))
    ⟨"outbox relay batch_size must be between 1 and 500"⟩
  raiseIf (leaseSeconds < 1) ⟨"outbox relay lease_seconds must be positive"⟩
  let selected ← normalizeEventTypes eventTypes eventType
  return { owner := PyStr.strip owner, eventTypes := selected, batchSize, leaseSeconds, policy }

/-- The counters of `RelayBatchResult`. -/
inductive Outcome
  | published
  | retried
  | failed
  | fenced
  | skipped
deriving Repr, DecidableEq

/-- `RelayBatchResult`. -/
structure RelayBatchResult where
  claimed : Nat
  count : Outcome → Nat

/-- `_increment`. -/
def RelayBatchResult.increment (r : RelayBatchResult) (field : Outcome) :
    RelayBatchResult :=
  { r with count := fun o => if o = field then r.count o + 1 else r.count o }

inductive BatchPc
  | claim
  | next
  | markPublished (event : OutboxEvent) (fence : Fence)
  | markRetry (event : OutboxEvent) (fence : Fence) (details : OutboxErrorDetails)
      (retryAt : Nat)
  | ended

/-- One call of `run_once`. -/
structure Batch where
  relay : Relay
  tenantId : Option Nat
  events : List OutboxEvent
  result : RelayBatchResult
  pc : BatchPc

/-- What a step gets from outside. -/
structure Env where
  now : Nat
  locked : Nat → Bool
  db : DbOutcome
  broker : BrokerOutcome

/-- The fence of a claimed event. -/
def OutboxEvent.fence (e : OutboxEvent) (lease : String × Nat) : Fence :=
  { tenantId := e.tenantId, eventId := e.eventId, aggregateVersion := e.aggregateVersion
    owner := lease.1, leaseToken := lease.2 }

/-- The `except` clause of `_process_one`, up to its transaction. -/
def Batch.failing (p : Batch) (now : Nat) (event : OutboxEvent) (error : PublishError) :
    Batch :=
  match event.requireLease with
  | .error _ => { p with result := p.result.increment .fenced, pc := .next }
  | .ok lease =>
      let details := errorDetailsFromException error (!error.isValueError)
      let retryAt :=
        if p.relay.policy.shouldRetry event.attempts details.retryable = true then
          now + p.relay.policy.delay event.attempts
        else now
      { p with pc := .markRetry event (event.fence lease) details retryAt }

/-- The next event of the loop: its checks and its broker call. The last
component is the message the broker now has, if any, and whether it said
so. -/
def Batch.processOne (p : Batch) (env : Env) (event : OutboxEvent) :
    Batch × Option (EventEnvelope × Bool) :=
  if p.relay.eventTypes.any (fun types => !types.contains event.eventType) = true then
    ({ p with result := p.result.increment .skipped }, none)
  else if event.claimOwner ≠ some p.relay.owner then
    ({ p with result := p.result.increment .fenced }, none)
  else
    match event.requireLease, envelopeOf event with
    | .ok lease, .ok envelope =>
        match publish env.broker envelope with
        | .ok _ =>
            ({ p with pc := .markPublished event (event.fence lease) },
              some (envelope, true))
        | .error error =>
            (p.failing env.now event error,
              if supportedRoutingKey envelope.eventType && env.broker.stores then
                some (envelope, false)
              else none)
    | _, _ => (p.failing env.now event valueError, none)

/-- The outcome of a mark that went through, or was fenced off. -/
def Batch.marked (p : Batch) (hit : Bool) (outcome : Outcome) : Batch :=
  { p with result := p.result.increment (if hit then outcome else .fenced), pc := .next }

/-- One step of a batch. An exception that leaves `run_once` ends it. -/
def batchStep (env : Env) (p : Batch) (s : Store) :
    Batch × Store × Option (EventEnvelope × Bool) :=
  match p.pc with
  | .claim =>
      match attempt env.db s (claim env.now env.locked p.relay.owner p.relay.eventTypes
          p.relay.batchSize p.tenantId p.relay.leaseSeconds p.relay.policy.maxAttempts s) with
      | (none, s) => ({ p with pc := .ended }, s, none)
      | (some events, s) =>
          ({ p with events, result := { p.result with claimed := events.length }
                    pc := .next }, s, none)
  | .next =>
      match p.events with
      | [] => ({ p with pc := .ended }, s, none)
      | event :: events =>
          let (p, message) := { p with events }.processOne env event
          (p, s, message)
  | .markPublished _ fence =>
      match attempt env.db s (markPublished env.now fence s) with
      | (none, s) => ({ p with pc := .ended }, s, none)
      | (some hit, s) => (p.marked hit .published, s, none)
  | .markRetry event fence details retryAt =>
      match attempt env.db s (markRetry env.now fence details retryAt
          p.relay.policy.maxAttempts s) with
      | (none, s) => ({ p with pc := .ended }, s, none)
      | (some hit, s) =>
          (p.marked hit (if p.relay.policy.shouldRetry event.attempts details.retryable
            then .retried else .failed), s, none)
  | .ended => (p, s, none)

-- ================================================================ world

/-- What an acceptance writes of a row. -/
structure NewRow where
  tenantId : Nat
  aggregateType : String
  aggregateId : Nat
  eventType : String
  aggregateVersion : Nat
  payload : List (String × Json)

/-- The row with the defaults of its other columns. -/
def NewRow.row (n : NewRow) (now : Nat) : OutboxRow :=
  { tenantId := n.tenantId, aggregateType := n.aggregateType, aggregateId := n.aggregateId
    eventType := n.eventType, aggregateVersion := n.aggregateVersion, payload := n.payload
    status := .pending, attempts := 0, availableAt := now, publishedAt := none
    sanitizedErrorDetails := none, claimOwner := none, leaseToken := none
    leaseExpiresAt := none, createdAt := now }

structure World where
  store : Store
  batches : Table Batch
  /-- The envelopes the broker has confirmed. -/
  confirmed : List EventEnvelope

inductive Act
  | insert (now : Nat) (row : NewRow)
  /-- A relay is built, if its arguments pass, and called. -/
  | start (owner : String) (eventTypes : Option (List String)) (eventType : Option String)
      (batchSize leaseSeconds : Nat) (delay : Nat → Nat) (tenantId : Option Nat)
  | step (batch : Nat) (env : Env)

/-- One act of a world whose relays share `maxAttempts`. -/
def worldStep (maxAttempts : Nat) (w : World) : Act → World
  | .insert now row =>
      { w with store := { w.store with rows := w.store.rows.insert (row.row now) } }
  | .start owner eventTypes eventType batchSize leaseSeconds delay tenantId =>
      match Relay.init owner eventTypes eventType batchSize leaseSeconds
          { maxAttempts, delay } with
      | .error _ => w
      | .ok relay =>
          let batch : Batch :=
            { relay, tenantId, events := [], result := ⟨0, fun _ => 0⟩, pc := .claim }
          { w with batches := w.batches.insert batch }
  | .step batch env =>
      match w.batches.get batch with
      | none => w
      | some p =>
          let (p', store, message) := batchStep env p w.store
          { store
            batches := w.batches.modify batch fun _ => p'
            confirmed := match message with
              | some (envelope, true) => w.confirmed ++ [envelope]
              | _ => w.confirmed }

/-- A world nobody has used. -/
structure WorldOpening (w : World) : Prop where
  rows : w.store.rows = Table.empty
  batches : w.batches = Table.empty
  confirmed : w.confirmed = []

end Mosaic.Outbox
