/-
The event stream of a request (`ConversationService.stream`,
app/conversations/service.py) over the two reads it makes
(`assert_request` and `events`, app/conversations/repository.py).

# A reader

The generator holds no transaction between its awaits: it reads the
events past its cursor, yields them one by one, reads the request again,
and sleeps until the notifier wakes it or its patience runs out. A
`Reader` is one such generator with its program counter; other parties
commit between any two of its steps.

# Time

Readings of the monotonic clock, the deadline and the intervals are
integers of one unit. A notification only ends a wait early, so a step
takes whatever the wait came to from its environment.
-/
import Mosaic.Chat.Reconcile

namespace Mosaic.Chat

open Lib

-- ================================================================ reads

inductive StreamError
  | cursor
  | notFound
  | infrastructure (code : String)
deriving Repr, DecidableEq

/-- The arguments of `stream`. -/
structure StreamAsk where
  tenantId : Nat
  actorUserId : Nat
  conversationId : Nat
  requestId : Nat
  cursor : Option Int
  includeHeartbeats : Bool
  heartbeatInterval : Int
deriving Repr, DecidableEq

/-- `-1 if cursor is None else cursor`. -/
def StreamAsk.normalizedCursor (a : StreamAsk) : Int := a.cursor.getD (-1)

/-- The `WHERE` of both reads: the request, for the user who owns it. -/
def StreamAsk.admits (a : StreamAsk) (s : Store) (r : InferenceRequest) : Bool :=
  r.tenantId == a.tenantId && r.actorUserId == some a.actorUserId
    && r.conversationId == a.conversationId && r.requestId == a.requestId
    && (s.conversations.get r.conversationId).any fun c =>
      c.tenantId == r.tenantId && c.createdByUserId == a.actorUserId

/-- `assert_request`. -/
def assertRequest (s : Store) (a : StreamAsk) : Except StreamError ChatRequestRecord := do
  let e ← orRaise (s.requests.find (a.admits s)) .notFound
  return requestRecord e.1 e.2

/-- `events`. -/
def streamEvents (s : Store) (a : StreamAsk) (after : Int) :
    Except StreamError (List StreamEvent) := do
  let e ← orRaise (s.requests.find (a.admits s)) .notFound
  return eventsAfter s a.tenantId e.1 after

/-- `_TERMINAL_REQUEST_STATUSES` of the service, which has one more status
than the repository's. -/
def streamTerminal : RequestStatus → Bool
  | .succeeded => true
  | .failed => true
  | .cancelled => true
  | .stopped => true
  | .submittedUnknown => true
  | _ => false

-- =========================================================== validation

/-- `^[A-Z0-9_]+$`. -/
def publicErrorCode (s : String) : Bool :=
  1 ≤ s.toList.length
    && s.toList.all fun c => ('A' ≤ c && c ≤ 'Z') || ('0' ≤ c && c ≤ '9') || c == '_'

/-- The `ChatStreamEvent` contract; the ids of an event are never empty. -/
def eventContract (e : StreamEvent) : Bool :=
  match e.body with
  | .started => e.sequenceNo == 0
  | .delta text => 0 ≤ e.sequenceNo && 1 ≤ PyStr.len text && PyStr.len text ≤ 64000
  | .completed content => 0 ≤ e.sequenceNo && PyStr.len content ≤ 1000000
  | .stopped => 0 ≤ e.sequenceNo
  | .failed error =>
      0 ≤ e.sequenceNo && publicErrorCode error.code && 1 ≤ PyStr.len error.message

/-- The `event["type"] == "started"` test. -/
def StreamEvent.isStarted (e : StreamEvent) : Bool :=
  match e.body with
  | .started => true
  | _ => false

/-- The `error` of a `failed` event names this very request. -/
def StreamEvent.blames (e : StreamEvent) (requestId : Nat) : Bool :=
  match e.body with
  | .failed error => error.requestId == requestId
  | _ => true

/-- `_validate_event`. -/
def validateEvent (row : StreamEvent) (request : ChatRequestRecord)
    (conversationId : Nat) (expected : Int) (requireStarted terminal : Bool) :
    Except StreamError Unit := do
  raiseIf (row.sequenceNo ≠ expected) (.infrastructure "STREAM_EVENT_SEQUENCE_INVALID")
  raiseIf (eventContract row = false) (.infrastructure "STREAM_EVENT_INVALID")
  raiseIf (row.requestId ≠ request.requestId ∨ row.conversationId ≠ conversationId
    ∨ row.messageId ≠ request.messageId) (.infrastructure "STREAM_EVENT_INVALID")
  raiseIf (requireStarted = true ∧ (row.isStarted = false ∨ expected ≠ 0))
    (.infrastructure "STREAM_EVENT_SEQUENCE_INVALID")
  raiseIf (requireStarted = false ∧ row.isStarted = true)
    (.infrastructure "STREAM_EVENT_SEQUENCE_INVALID")
  raiseIf (terminal = true) (.infrastructure "STREAM_EVENT_AFTER_TERMINAL")
  raiseIf (row.blames request.requestId = false) (.infrastructure "STREAM_EVENT_INVALID")

-- =============================================================== reader

/-- What the constructor of the service fixes. -/
structure StreamService where
  maxDuration : Option Nat
  replayFallback : Nat
  notifier : Bool
  fallbackPos : 0 < replayFallback

inductive ReaderPc
  | read
  /-- `empty`: the read found nothing. -/
  | yielding (rows : List StreamEvent) (empty : Bool)
  | check (empty : Bool)
  | returned
  | expired
  | raised (error : StreamError)
deriving Repr, DecidableEq

/-- One `stream` generator; `yielded` is what its caller has received. -/
structure Reader where
  service : StreamService
  ask : StreamAsk
  request : ChatRequestRecord
  expected : Int
  terminal : Bool
  started : Bool
  deadline : Option Int
  lastHeartbeat : Int
  subscribed : Bool
  yielded : List StreamEvent
  pc : ReaderPc

/-- How a wait for a notification ends. -/
inductive Wake
  | notified
  | timedOut
  | raised
deriving Repr, DecidableEq

structure ReaderEnv where
  deadlineNow : Int
  heartbeatNow : Int
  heartbeatReset : Int
  afterNow : Int
  afterReset : Int
  wake : Wake

/-- `stream` up to its loop. -/
def openStream (service : StreamService) (now heartbeatNow : Int) (subscribes : Bool)
    (a : StreamAsk) (s : Store) : Except StreamError Reader := do
  let cursor := a.normalizedCursor
  raiseIf (cursor < -1 ∨ (a.includeHeartbeats = true ∧ a.heartbeatInterval ≤ 0)) .cursor
  let request ← assertRequest s a
  raiseIf (streamTerminal request.status = true ∧ request.lastEventSequence < 1)
    (.infrastructure "STREAM_TERMINAL_EVENT_MISSING")
  raiseIf (cursor > request.lastEventSequence) .cursor
  let covered := streamTerminal request.status && request.lastEventSequence ≤ cursor
  return { service, ask := a, request, expected := cursor + 1, terminal := false
           started := 0 ≤ cursor
           deadline := service.maxDuration.map fun d => now + d
           lastHeartbeat := heartbeatNow
           subscribed := service.notifier && subscribes, yielded := []
           pc := if covered then .returned else .read }

/-- The wait at the end of a turn. -/
def Reader.wait (p : Reader) (env : ReaderEnv) (time : Int) : Reader :=
  if time ≤ 0 then { p with pc := .returned }
  else
    { p with
      subscribed := p.subscribed && decide (env.wake ≠ .raised)
      lastHeartbeat :=
        if p.ask.includeHeartbeats = true
            ∧ env.afterNow - p.lastHeartbeat ≥ p.ask.heartbeatInterval then env.afterReset
        else p.lastHeartbeat
      pc := .read }

/-- The time left, or the fallback of a stream without a deadline. -/
def Reader.remaining (p : Reader) (now : Int) : Int :=
  match p.deadline with
  | some d => d - now
  | none => p.service.replayFallback

/-- The deadline, the heartbeat and the wait. -/
def Reader.pause (p : Reader) (env : ReaderEnv) : Reader :=
  let fallback : Int := p.service.replayFallback
  let remaining := p.remaining env.deadlineNow
  if p.deadline.isSome = true ∧ remaining ≤ 0 then { p with pc := .expired }
  else if p.ask.includeHeartbeats = true then
    let heartbeat := p.ask.heartbeatInterval - (env.heartbeatNow - p.lastHeartbeat)
    if heartbeat ≤ 0 then { p with lastHeartbeat := env.heartbeatReset, pc := .read }
    else p.wait env (min (min fallback remaining) heartbeat)
  else p.wait env (min fallback remaining)

/-- One step of the generator, which writes nothing. -/
def readerStep (env : ReaderEnv) (p : Reader) (s : Store) : Reader :=
  match p.pc with
  | .read =>
      match streamEvents s p.ask (p.expected - 1) with
      | .error e => { p with pc := .raised e }
      | .ok rows => { p with pc := .yielding rows rows.isEmpty }
  | .yielding [] empty => { p with pc := if p.terminal then .returned else .check empty }
  | .yielding (row :: rows) empty =>
      match validateEvent row p.request p.ask.conversationId p.expected (!p.started)
          p.terminal with
      | .error e => { p with pc := .raised e }
      | .ok _ =>
          { p with
            started := true, expected := p.expected + 1
            terminal := p.terminal || row.body.terminal
            yielded := p.yielded ++ [row], pc := .yielding rows empty }
  | .check empty =>
      match assertRequest s p.ask with
      | .error e => { p with pc := .raised e }
      | .ok refreshed =>
          if streamTerminal refreshed.status = true
              ∧ p.expected > refreshed.lastEventSequence then { p with pc := .returned }
          else if empty = true ∧ streamTerminal refreshed.status = true
              ∧ p.expected ≤ refreshed.lastEventSequence then
            { p with pc := .raised (.infrastructure "STREAM_EVENT_SEQUENCE_INVALID") }
          else p.pause env
  | .returned => p
  | .expired => p
  | .raised _ => p

-- ============================================================= audience

/-- A site with one of its readers. -/
structure Audience where
  site : Site
  reader : Reader

inductive AudienceAct
  | site (act : SiteAct)
  | read (env : ReaderEnv)

def audienceStep (cfg : Config) (y : Audience) : AudienceAct → Audience
  | .site act => { y with site := siteStep cfg y.site act }
  | .read env => { y with reader := readerStep env y.reader y.site.world.store }

end Mosaic.Chat
