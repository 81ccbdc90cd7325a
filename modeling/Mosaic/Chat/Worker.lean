/-
The durable chat worker as a process (app/conversations/worker.py).

# Steps

`_execute_claimed` holds no transaction across its awaits: it is a
sequence of short repository calls and provider iterations, and other
parties run between any two of them. A `Process` is one execution with
its program counter `Pc`; `workerStep` performs the one call the counter
stands at. A crash is a process that takes no further step.

# Failure

Every repository call can commit, be rolled back, or commit without the
worker learning of it (`DbOutcome`); the last two, and an error the call
raises itself, surface as an exception, which the `Region` of the
program routes: out of the worker, to `_fail`, or, once the POST may
have been sent, to `mark_submitted_unknown`.

# Clock

A process reads its own clock, which does not run backwards: each call
says how much time passed since the last reading.
-/
import Mosaic.Chat.System
import Mosaic.Lib.Db

namespace Mosaic.Chat

open Lib Providers

-- ========================================================= environment

/-- The answer of the permit semaphore: a permit, a refusal (saturated or
unreachable), or any other exception. -/
inductive Admission
  | granted
  | refused
  | error
deriving Repr, DecidableEq

/-- What one step leaves to the environment. -/
structure Env where
  elapsed : Nat
  wait : Nat
  db : DbOutcome
  admission : Admission
  feed : Feed
  /-- The permit is lost, or the call cancelled, while the stream is
  awaited. -/
  interrupted : Bool

-- ============================================================= process

/-- Where an exception goes. -/
inductive Region
  /-- Before the `try`: out of the worker. -/
  | outside
  /-- Inside it, before the POST: a definitive failure. -/
  | admitted
  /-- Inside it, once the POST may have been sent. -/
  | submitted
deriving Repr, DecidableEq

/-- What a stop request finds: where it was seen and the content so
far. -/
structure StopPoint where
  region : Region
  content : String
deriving Repr, DecidableEq

inductive Pc
  | begin
  | firstCheck
  | prepare
  | requeue
  | secondCheck
  | openStream
  | next
  | checkChunk (chunk : TextStreamChunk)
  | append (chunk : TextStreamChunk)
  | stopping (point : StopPoint)
  | releasing (region : Region)
  /-- `finished`: the stream ran to its end, rather than being given up. -/
  | finalCheck (finished : Bool)
  | complete
  | capture
  | failing (code : String) (details : Option ErrorDetails)
      (providerRequestId : Option String) (reserved : Bool)
  | markingUnknown (code : String) (providerRequestId : Option String)
  | requeued
  | ended
deriving Repr, DecidableEq

/-- One execution of the worker. `_ChatStreamState` is `current`,
`providerRequestId`, `content` and `usage`; `feed` and `rest` are the
provider's side of the open stream. -/
structure Process where
  current : Execution
  clock : Nat
  providerRequestId : Option String
  content : String
  usage : Option TokenUsage
  feed : Option Feed
  rest : List StreamItem
  pc : Pc

/-- The process a successful claim starts. -/
def Process.start (now : Nat) (e : Execution) : Process :=
  { current := e, clock := now, providerRequestId := e.providerRequestId
    content := "", usage := none, feed := none, rest := [], pc := .begin }

-- ============================================================== errors

/-- `_ERROR_CODE_RE.sub("_", …)`: a run of other characters becomes one
underscore. -/
def collapseCode : Bool → List Char → List Char
  | _, [] => []
  | inRun, c :: rest =>
      if ('A' ≤ c ∧ c ≤ 'Z') ∨ ('0' ≤ c ∧ c ≤ '9') ∨ c = '_' then
        c :: collapseCode false rest
      else if inRun then collapseCode true rest
      else '_' :: collapseCode true rest

/-- `_safe_error_code`; the codes it is given are ASCII constants. -/
def safeErrorCode (value fallback : String) : String :=
  let normalized := ((collapseCode false (value.toList.map Char.toUpper)).dropWhile
    (· == '_')).rdropWhile (· == '_')
  String.ofList ((if normalized = [] then fallback.toList else normalized).take 120)

/-- `_safe_error_details(exc.diagnostic_dict())`. -/
def safeErrorDetails (e : ProviderError) : ErrorDetails :=
  { code := some e.code, phase := none, retryable := some e.retryable
    statusCode := e.statusCode.map Int.ofNat, requestId := e.requestId }

/-- `_is_submission_unknown`. -/
def isSubmissionUnknown (e : ProviderError) : Bool :=
  let code := PyStr.lower e.code
  if code = "provider_submission_unknown" ∨ code = "submission_unknown" then true
  else if code = "provider_connection_error" then false
  else match e.statusCode with
    | none => true
    | some status => status == 408 || 500 ≤ status

/-- The `except Exception` branch of a region. -/
def Process.raise (p : Process) (region : Region) : Process :=
  match region with
  | .outside => { p with pc := .ended }
  | .admitted =>
      { p with pc := .failing "CHAT_PROVIDER_ERROR" none p.providerRequestId true }
  | .submitted =>
      { p with pc := .markingUnknown "CHAT_PROVIDER_ERROR" p.providerRequestId }

/-- The `except ProviderError` branch, which only the stream reaches. -/
def Process.raiseProvider (p : Process) (e : ProviderError) : Process :=
  let provider := orElse p.providerRequestId e.requestId
  if isSubmissionUnknown e then
    { p with pc := .markingUnknown e.code provider }
  else
    { p with pc := .failing e.code (some (safeErrorDetails e)) provider true }

/-- `_coherent_provider_request_id`. -/
def coherentProviderRequestId (previous : Option String) (current : String) :
    Option String :=
  if current = "" then none
  else match previous with
    | none => some current
    | some p => if p = current then some current else none

-- ================================================================ step

/-- What a deployment of the worker fixes: the published prices, the
heartbeat extension, and two functions of the code this module does not
look into: whether `_completion_request` builds a prompt from a history,
and how a data line of the stream decodes. -/
structure Config where
  book : Catalog.PriceBook
  leaseExtensionSeconds : Nat
  completionOk : Execution → Bool
  decode : String → Option StreamResponse

section

variable (cfg : Config)

/-- `check_lease_and_stop` and what the worker does with the answer; the
heartbeat raises nothing of its own. -/
def leaseCheck (env : Env) (p : Process) (s : Store) (region : Region)
    (content : String) (invalid : Pc) (go : Process → Process) : Process × Store :=
  let now := p.clock + env.elapsed
  let p := { p with clock := now + env.wait }
  let check : Except ChatError (LeaseCheck × Store) :=
    .ok (checkLeaseAndStop cfg.leaseExtensionSeconds now p.current s)
  match attempt env.db s check with
  | (none, s) => (p.raise region, s)
  | (some check, s) =>
      if check.leaseValid = false then ({ p with pc := invalid }, s)
      else if check.stopRequested = true then
        ({ p with pc := .stopping ⟨region, content⟩ }, s)
      else (go p, s)

/-- One step of `_execute_claimed`. -/
def workerStep (env : Env) (p : Process) (s : Store) : Process × Store :=
  let now := p.clock + env.elapsed
  let lockedNow := now + env.wait
  let later := { p with clock := lockedNow }
  match p.pc with
  | .begin =>
      if p.current.status ≠ .running ∨ p.current.leaseToken = none then
        ({ p with pc := .ended }, s)
      else if p.current.reservationId = none then
        ({ p with pc := .failing "CHAT_BILLING_RESERVATION_MISSING" none
                    p.current.providerRequestId false }, s)
      else ({ p with pc := .firstCheck }, s)
  | .firstCheck =>
      leaseCheck cfg env p s .outside "" .ended
        fun p => { p with pc := .prepare }
  | .prepare =>
      if cfg.completionOk p.current = false then
        ({ p with pc := .failing "CHAT_HISTORY_INVALID" none
                    p.current.providerRequestId true }, s)
      else
        match env.admission with
        | .granted => ({ p with pc := .secondCheck }, s)
        | .refused => ({ p with pc := .requeue }, s)
        | .error => ({ p with pc := .ended }, s)
  | .requeue =>
      let (requeued, s') := requeueClaimed now p.current s
      match env.db with
      | .rolledBack => ({ later with pc := .ended }, s)
      | _ => ({ later with pc := if requeued then .requeued else .ended }, s')
  | .secondCheck =>
      leaseCheck cfg env p s .admitted "" .ended
        fun p => { p with pc := .openStream }
  | .openStream =>
      -- `provider.stream`: the chargeable POST happens on the first iteration
      ({ p with
          feed := some env.feed
          rest := streamItems cfg.decode p.current.deployment.providerModelId env.feed
          pc := .next }, s)
  | .next =>
      if env.interrupted = true then (p.raise .submitted, s)
      else match p.rest with
        | [] => ({ p with pc := .finalCheck true }, s)
        | .fail (.provider e) :: _ => (p.raiseProvider e, s)
        | .fail .value :: _ => (p.raise .submitted, s)
        | .chunk c :: rest => ({ p with rest, pc := .checkChunk c }, s)
  | .checkChunk chunk =>
      leaseCheck cfg env p s .submitted p.content (.finalCheck false)
        fun p =>
          match coherentProviderRequestId p.providerRequestId chunk.requestId with
          | none => p.raise .submitted
          | some provider =>
              { p with
                providerRequestId := some provider
                usage := chunk.usage <|> p.usage
                pc := if chunk.delta = "" then .next else .append chunk }
  | .append chunk =>
      match attempt env.db s (appendDelta cfg.leaseExtensionSeconds now lockedNow
          p.current (p.current.lastEventSequence + 1) chunk.delta p.providerRequestId s) with
      | (none, s) => (later.raise .submitted, s)
      | (some none, s) => ({ later with pc := .finalCheck false }, s)
      | (some (some sequence), s) =>
          ({ later with
              content := p.content ++ chunk.delta
              current := { p.current with
                lastEventSequence := sequence
                providerRequestId := p.providerRequestId }
              pc := .next }, s)
  | .stopping point =>
      match attempt env.db s (markStopped now lockedNow p.current
          (p.current.lastEventSequence + 1) point.content s) with
      | (none, s) => (later.raise point.region, s)
      | (some false, s) => ({ later with pc := .ended }, s)
      | (some true, s) => ({ later with pc := .releasing point.region }, s)
  | .releasing region =>
      match p.current.reservationId with
      | none => ({ p with pc := .ended }, s)
      | some reservationId =>
          let billing := Billing.release now .none p.current.tenantId reservationId
            s.billing
          match attempt env.db s ((billing.map fun x =>
              ((), { s with billing := x.2 })).mapError ChatError.billing) with
          | (none, s) => (later.raise region, s)
          | (some _, s) => ({ later with pc := .ended }, s)
  | .finalCheck _ =>
      leaseCheck cfg env p s .submitted p.content .ended
        fun p => { p with pc := .complete }
  | .complete =>
      match attempt env.db s (markCompleted cfg.book now lockedNow p.current
          (p.current.lastEventSequence + 1) p.content p.providerRequestId
          (p.usage.getD {}) s) with
      | (none, s) => (later.raise .submitted, s)
      | (some false, s) => ({ later with pc := .ended }, s)
      | (some true, s) => ({ later with pc := .capture }, s)
  | .capture =>
      match p.current.reservationId with
      | none => ({ p with pc := .ended }, s)
      | some reservationId =>
          let billing := Billing.capture now .none (s.sources cfg.book)
            { tenantId := p.current.tenantId, reservationId
              usage := some (billingUsage (p.usage.getD {})) } s.billing
          let (_, s) := attempt env.db s ((billing.map fun x =>
            ((), { s with billing := x.2 })).mapError ChatError.billing)
          -- an exception after the terminal event is re-raised
          ({ later with pc := .ended }, s)
  | .failing code details provider reserved =>
      match attempt env.db s (markFailed now lockedNow p.current
          (p.current.lastEventSequence + 1)
          (safeErrorCode code "CHAT_PROVIDER_ERROR") details provider s) with
      | (some true, s) =>
          ({ later with pc := if reserved then .releasing .outside else .ended }, s)
      | (_, s) => ({ later with pc := .ended }, s)
  | .markingUnknown code provider =>
      let (_, s) := attempt env.db s (markSubmittedUnknown now lockedNow p.current
        provider (safeErrorCode code "CHAT_SUBMISSION_UNKNOWN") s)
      ({ later with pc := .ended }, s)
  | .requeued => (p, s)
  | .ended => (p, s)

end

end Mosaic.Chat
