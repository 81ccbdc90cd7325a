/-
The compare-and-swap state machine of generation jobs
(app/generations/state.py).

`ALLOWED_TRANSITIONS` is the table the repository's `transition` and
`complete` check before they write. Claims, cancels, the stall sweep and
the operator write statuses of their own, outside of it.
-/
import Mosaic.Billing.Pricing

namespace Mosaic.Generation

open Lib

inductive GenerationStatus
  | accepted
  | reserved
  | queued
  | submitted
  | submittedUnknown
  | running
  | storing
  | succeeded
  | failed
  | cancelled
  | expired
deriving Repr, DecidableEq

namespace GenerationStatus

def toString : GenerationStatus → String
  | .accepted => "accepted"
  | .reserved => "reserved"
  | .queued => "queued"
  | .submitted => "submitted"
  | .submittedUnknown => "submitted_unknown"
  | .running => "running"
  | .storing => "storing"
  | .succeeded => "succeeded"
  | .failed => "failed"
  | .cancelled => "cancelled"
  | .expired => "expired"

/-- `ALLOWED_TRANSITIONS`. -/
def allowedTransitions : GenerationStatus → List GenerationStatus
  | .accepted => [.reserved, .failed, .cancelled, .expired]
  | .reserved => [.queued, .failed, .cancelled, .expired]
  | .queued => [.accepted, .submitted, .failed, .cancelled, .expired]
  | .submitted => [.running, .submittedUnknown, .failed, .cancelled]
  | .submittedUnknown => [.running, .failed, .cancelled, .expired]
  | .running => [.storing, .succeeded, .failed, .cancelled, .expired]
  | .storing => [.succeeded, .failed, .expired]
  | .succeeded => []
  | .failed => []
  | .cancelled => []
  | .expired => []

/-- `is_terminal`. -/
def isTerminal : GenerationStatus → Bool
  | .succeeded => true
  | .failed => true
  | .cancelled => true
  | .expired => true
  | _ => false

/-- The statuses of a job somebody works on: those a heartbeat keeps and
the stall sweep looks at. -/
def inProgress : GenerationStatus → Bool
  | .reserved => true
  | .queued => true
  | .submitted => true
  | .running => true
  | .storing => true
  | _ => false

end GenerationStatus

-- =============================================================== errors

/-- What an operation on generation jobs can raise. -/
inductive GenerationError
  | modelUnavailable
  | idempotencyConflict
  | idempotencyInProgress
  | notFound
  | stateConflict
  | infrastructure (code : String)
  | integrity (index : String)
  | value (message : String)
  | billing (error : Billing.BillingError)
deriving Repr, DecidableEq

/-- `assert_transition`. -/
def assertTransition (current target : GenerationStatus) :
    Except GenerationError Unit :=
  raiseIf (target ∉ current.allowedTransitions)
    (.value ("cannot transition " ++ current.toString ++ " to " ++ target.toString))

-- ============================================================== one way

namespace GenerationStatus

/-- Before the submission: no provider call has been made for the job. -/
def unsubmitted : GenerationStatus → Bool
  | .accepted => true
  | .reserved => true
  | .queued => true
  | _ => false

/-- The table leads into `submitted` from `queued` alone. -/
theorem submitted_entry {a : GenerationStatus} (h : .submitted ∈ a.allowedTransitions) :
    a = .queued := by
  cases a with
  | queued => rfl
  | _ => simp [allowedTransitions] at h

/-- The table never leads back before the submission. -/
theorem unsubmitted_exit {a b : GenerationStatus} (h : b ∈ a.allowedTransitions)
    (hb : b.unsubmitted = true) : a.unsubmitted = true := by
  cases a with
  | accepted => rfl
  | reserved => rfl
  | queued => rfl
  | _ =>
      cases b <;> simp [allowedTransitions, unsubmitted] at h hb

theorem not_terminal_of_inProgress {a : GenerationStatus} (h : a.inProgress = true) :
    a.isTerminal = false := by
  cases a <;> first | rfl | cases h

/-- Nothing leaves a terminal status. -/
theorem terminal_exit {a b : GenerationStatus} (h : b ∈ a.allowedTransitions) :
    a.isTerminal = false := by
  cases a with
  | succeeded => simp [allowedTransitions] at h
  | failed => simp [allowedTransitions] at h
  | cancelled => simp [allowedTransitions] at h
  | expired => simp [allowedTransitions] at h
  | _ => rfl

end GenerationStatus

end Mosaic.Generation
