/-
The fenced repository over `outbox_events`
(`SqlAlchemyOutboxRepository`, app/outbox/repository.py).

# Transactions

`claim` and the two marks are one transaction each; a raise inside one
leaves the store as it was. A claim skips the rows somebody else has
locked (`locked`), and its tokens are `uuid4` values nobody has drawn
before.
-/
import Mosaic.Lib.Table
import Mosaic.Outbox.Types

namespace Mosaic.Outbox

open Lib

/-- A row of `outbox_events`. -/
structure OutboxRow where
  tenantId : Nat
  aggregateType : String
  aggregateId : Nat
  eventType : String
  aggregateVersion : Nat
  payload : List (String × Json)
  status : OutboxStatus
  attempts : Nat
  availableAt : Nat
  publishedAt : Option Nat
  sanitizedErrorDetails : Option OutboxErrorDetails
  claimOwner : Option String
  leaseToken : Option Nat
  leaseExpiresAt : Option Nat
  createdAt : Nat

structure Store where
  rows : Table OutboxRow
  nextUuid : Nat

-- ============================================================ arguments

/-- `_validate_owner`. -/
def validateOwner (owner : String) : Except ValueError String := do
  let normalized := PyStr.strip owner
  raiseIf (normalized = "" ∨ PyStr.len normalized > 200)
    ⟨"outbox claim owner must be 1 to 200 characters"⟩
  return normalized

/-- `_validate_limit`. -/
def validateLimit (limit : Nat) : Except ValueError Unit :=
  raiseIf (¬ (1 ≤ limit ∧ limit ≤ 500)) ⟨"outbox claim limit must be between 1 and 500"⟩

/-- `_validate_lease_seconds`. -/
def validateLeaseSeconds (leaseSeconds : Nat) : Except ValueError Unit :=
  raiseIf (¬ (1 ≤ leaseSeconds ∧ leaseSeconds ≤ 86400))
    ⟨"outbox lease must be between 1 and 86400 seconds"⟩

/-- `_validate_max_attempts`. -/
def validateMaxAttempts (maxAttempts : Nat) : Except ValueError Unit :=
  raiseIf (¬ (1 ≤ maxAttempts ∧ maxAttempts ≤ 1000))
    ⟨"outbox max_attempts must be between 1 and 1000"⟩

/-- `normalize_event_types`, of a filter in its singular or plural form. -/
def normalizeEventTypes (eventTypes : Option (List String)) (eventType : Option String) :
    Except ValueError (Option (List String)) := do
  raiseIf (eventTypes.isSome = true ∧ eventType.isSome = true)
    ⟨"pass event_type or event_types, not both"⟩
  match (eventType.map fun t => [t]) <|> eventTypes with
  | none => return none
  | some values => do
      let normalized := (values.map PyStr.strip).eraseDups
      raiseIf ("" ∈ normalized) ⟨"outbox event_type filter must not contain blank values"⟩
      raiseIf (normalized.any (fun t => eventTypeValid t == false) = true)
        ⟨"outbox event_type filter contains an invalid value"⟩
      return some normalized

-- ================================================================ claim

/-- The filters a claim puts on top of its status and lease tests. -/
structure ClaimFilter where
  tenantId : Option Nat
  eventTypes : Option (List String)

def ClaimFilter.admits (f : ClaimFilter) (row : OutboxRow) : Bool :=
  f.tenantId.all (· == row.tenantId) && f.eventTypes.all (·.contains row.eventType)

/-- Pending, available, and with no lease that is still running. -/
def claimable (now : Nat) (f : ClaimFilter) (row : OutboxRow) : Bool :=
  row.status == .pending && row.availableAt ≤ now && row.leaseExpiresAt.all (· ≤ now)
    && f.admits row

/-- The details of a row that ran out of attempts. -/
def maxAttemptsDetails : OutboxErrorDetails :=
  { code := "OUTBOX_MAX_ATTEMPTS", phase := "claim", retryable := false
    codeValid := by decide, phaseValid := by decide }

/-- The sweep of a claim: a row without attempts left fails. -/
def failExhausted (now maxAttempts : Nat) (f : ClaimFilter) (row : OutboxRow) : OutboxRow :=
  if claimable now f row = true ∧ maxAttempts ≤ row.attempts then
    { row with
      status := .failed, sanitizedErrorDetails := some maxAttemptsDetails
      claimOwner := none, leaseToken := none, leaseExpiresAt := none }
  else row

/-- `_event_from_row`. -/
def eventFromRow (id : Nat) (row : OutboxRow) (attempts : Nat) (owner : String)
    (token leaseUntil : Nat) : Except ValueError OutboxEvent := do
  let event : OutboxEvent :=
    { eventId := id, tenantId := row.tenantId, aggregateType := row.aggregateType
      aggregateId := row.aggregateId, eventType := row.eventType
      aggregateVersion := row.aggregateVersion, payload := row.payload, attempts
      availableAt := leaseUntil, claimOwner := some owner, leaseToken := some token
      leaseExpiresAt := some leaseUntil }
  event.check
  return event

/-- The update of one selected row. -/
def leaseRow (owner : String) (token leaseUntil attempts : Nat) (row : OutboxRow) :
    OutboxRow :=
  if row.status = .pending then
    { row with
      attempts, availableAt := leaseUntil, claimOwner := some owner
      leaseToken := some token, leaseExpiresAt := some leaseUntil }
  else row

/-- The loop of `claim` over the selected rows. -/
def claimRows (owner : String) (leaseUntil : Nat) :
    List (Nat × OutboxRow) → Store → Except ValueError (List OutboxEvent × Store)
  | [], s => .ok ([], s)
  | (id, row) :: es, s => do
      let token := s.nextUuid
      let event ← eventFromRow id row (row.attempts + 1) owner token leaseUntil
      let (events, s) ← claimRows owner leaseUntil es
        { rows := s.rows.modify id (leaseRow owner token leaseUntil (row.attempts + 1))
          nextUuid := token + 1 }
      return (event :: events, s)

/-- The rows a claim selects, oldest first. -/
def claimSelection (now limit maxAttempts : Nat) (f : ClaimFilter) (locked : Nat → Bool)
    (rows : Table OutboxRow) : List (Nat × OutboxRow) :=
  (rows.ordered
    (fun a b => a.2.createdAt < b.2.createdAt
      || (a.2.createdAt == b.2.createdAt && a.1 ≤ b.1))
    fun e => claimable now f e.2 && e.2.attempts < maxAttempts && !locked e.1).take limit

/-- `claim`, for a filter in its plural form. -/
def claim (now : Nat) (locked : Nat → Bool) (owner : String)
    (eventTypes : Option (List String)) (limit : Nat) (tenantId : Option Nat)
    (leaseSeconds maxAttempts : Nat) (s : Store) :
    Except ValueError (List OutboxEvent × Store) := do
  let owner ← validateOwner owner
  validateLimit limit
  validateLeaseSeconds leaseSeconds
  validateMaxAttempts maxAttempts
  let selected ← normalizeEventTypes eventTypes none
  if selected = some [] then return ([], s)
  else do
    let f : ClaimFilter := { tenantId, eventTypes := selected }
    let rows := s.rows.update (failExhausted now maxAttempts f)
    claimRows owner (now + leaseSeconds * 1000000)
      (claimSelection now limit maxAttempts f locked rows) { s with rows }

-- ================================================================ marks

/-- The fence every mark carries. -/
structure Fence where
  tenantId : Nat
  eventId : Nat
  aggregateVersion : Nat
  owner : String
  leaseToken : Nat
deriving Repr, DecidableEq

/-- The row a mark is for, if it is still pending under this very lease. -/
def Fence.admits (f : Fence) (row : OutboxRow) : Bool :=
  row.tenantId == f.tenantId && row.aggregateVersion == f.aggregateVersion
    && row.status == .pending && row.claimOwner == some f.owner
    && row.leaseToken == some f.leaseToken

/-- An update under a fence, with whether a row was hit. -/
def fencedUpdate (f : Fence) (change : OutboxRow → OutboxRow) (s : Store) : Bool × Store :=
  if (s.rows.get f.eventId).any f.admits = true then
    (true, { s with rows := s.rows.modify f.eventId change })
  else (false, s)

/-- A row that is published. -/
def publishedRow (now : Nat) (row : OutboxRow) : OutboxRow :=
  { row with
    status := .published, publishedAt := some now, sanitizedErrorDetails := none
    claimOwner := none, leaseToken := none, leaseExpiresAt := none }

/-- `mark_published`. -/
def markPublished (now : Nat) (f : Fence) (s : Store) :
    Except ValueError (Bool × Store) := do
  let owner ← validateOwner f.owner
  return fencedUpdate { f with owner } (publishedRow now) s

/-- A row that waits for its next attempt, or has failed for good. -/
def retriedRow (now retryAt maxAttempts : Nat) (details : OutboxErrorDetails)
    (row : OutboxRow) : OutboxRow :=
  let retry := row.attempts < maxAttempts && details.retryable
  { row with
    status := if retry = true then .pending else .failed
    availableAt := if retry = true then retryAt else now
    sanitizedErrorDetails := some details
    claimOwner := none, leaseToken := none, leaseExpiresAt := none }

/-- `mark_retry`. -/
def markRetry (now : Nat) (f : Fence) (details : OutboxErrorDetails)
    (retryAt maxAttempts : Nat) (s : Store) : Except ValueError (Bool × Store) := do
  let owner ← validateOwner f.owner
  validateMaxAttempts maxAttempts
  return fencedUpdate { f with owner } (retriedRow now retryAt maxAttempts details) s

end Mosaic.Outbox
