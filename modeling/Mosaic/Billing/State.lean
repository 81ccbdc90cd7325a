/-
The pure reservation transitions (app/billing/state.py): what a capture
or a release decides before the service persists it.
-/
import Mosaic.Lib.Checked

namespace Mosaic.Billing

open Lib

/-- The persisted statuses of a balance reservation. `expired` is
admitted by the schema and by every reader; no writer produces it. -/
inductive ReservationStatus
  | pending
  | committed
  | released
  | expired
deriving Repr, DecidableEq

/-- The two exception classes of the transition rules. -/
inductive TransitionError
  | invalidReservationTransition (message : String)
  | valueError (message : String)
deriving Repr, DecidableEq

structure CaptureDecision where
  chargedMinor : Int
  releasedMinor : Int
  idempotent : Bool
deriving Repr, DecidableEq

structure ReleaseDecision where
  releasedMinor : Int
  idempotent : Bool
deriving Repr, DecidableEq

/-- `_require_nonnegative_integer`. -/
def requireNonnegativeInteger (value : Int) (name : String) :
    Except TransitionError Unit :=
  raiseIf (value < 0) (.valueError (name ++ " must be a non-negative integer"))

/-- `decide_capture`: validate a capture and split it into debit and
release. -/
def decideCapture (status : ReservationStatus) (reservedMinor actualMinor : Int)
    (capturedMinor : Option Int) : Except TransitionError CaptureDecision := do
  requireNonnegativeInteger reservedMinor "reserved_minor"
  raiseIf (reservedMinor = 0)
    (.invalidReservationTransition "reservation amount must be positive")
  requireNonnegativeInteger actualMinor "actual_minor"
  if status = .committed then do
    raiseIf (capturedMinor ≠ some actualMinor)
      (.invalidReservationTransition "committed capture amount differs")
    return { chargedMinor := actualMinor
             releasedMinor := reservedMinor - actualMinor
             idempotent := true }
  else do
    raiseIf (status ≠ .pending)
      (.invalidReservationTransition "reservation is not pending")
    raiseIf (actualMinor > reservedMinor)
      (.invalidReservationTransition "actual amount exceeds reservation")
    return { chargedMinor := actualMinor
             releasedMinor := reservedMinor - actualMinor
             idempotent := false }

/-- `decide_release`: validate a release and return what it frees. -/
def decideRelease (status : ReservationStatus) (reservedMinor : Int) :
    Except TransitionError ReleaseDecision := do
  requireNonnegativeInteger reservedMinor "reserved_minor"
  raiseIf (reservedMinor = 0)
    (.invalidReservationTransition "reservation amount must be positive")
  if status = .released then
    return { releasedMinor := reservedMinor, idempotent := true }
  else do
    raiseIf (status ≠ .pending)
      (.invalidReservationTransition "reservation is not pending")
    return { releasedMinor := reservedMinor, idempotent := false }

/-- `reservation_is_expired`. -/
def reservationIsExpired (expiresAt now : Nat) : Bool := expiresAt ≤ now

-- ================================================== what a decision says

/-- A capture that is not a replay comes from a pending hold and splits
it exactly. -/
theorem decideCapture_fresh {status : ReservationStatus} {reserved actual : Int}
    {captured : Option Int} {d : CaptureDecision}
    (h : decideCapture status reserved actual captured = .ok d)
    (hd : d.idempotent = false) :
    status = .pending ∧ 0 < reserved ∧ 0 ≤ actual ∧ actual ≤ reserved
      ∧ d.chargedMinor = actual ∧ d.releasedMinor = reserved - actual := by
  simp only [decideCapture, requireNonnegativeInteger, bind_eq_ok,
    raiseIf_eq_ok] at h
  obtain ⟨-, hnn, -, hpos, -, hact, h⟩ := h
  split at h
  · -- a committed hold only ever replays
    simp only [bind_eq_ok, raiseIf_eq_ok, pure_eq_ok] at h
    obtain ⟨-, -, rfl⟩ := h
    simp at hd
  · simp only [bind_eq_ok, raiseIf_eq_ok, pure_eq_ok] at h
    obtain ⟨-, hst, -, hle, rfl⟩ := h
    exact ⟨not_not.mp hst, by omega, by omega, by omega, rfl, rfl⟩

/-- A release that is not a replay frees a pending hold in full. -/
theorem decideRelease_fresh {status : ReservationStatus} {reserved : Int}
    {d : ReleaseDecision} (h : decideRelease status reserved = .ok d)
    (hd : d.idempotent = false) :
    status = .pending ∧ 0 < reserved ∧ d.releasedMinor = reserved := by
  simp only [decideRelease, requireNonnegativeInteger, bind_eq_ok,
    raiseIf_eq_ok] at h
  obtain ⟨-, hnn, -, hpos, h⟩ := h
  split at h
  · simp only [pure_eq_ok] at h
    subst h
    simp at hd
  · simp only [bind_eq_ok, raiseIf_eq_ok, pure_eq_ok] at h
    obtain ⟨-, hst, rfl⟩ := h
    exact ⟨not_not.mp hst, by omega, rfl⟩

end Mosaic.Billing
