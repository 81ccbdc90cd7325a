/-
A database call as its caller sees it.

The caller of a transaction learns its result, or catches an exception.
An exception does not say whether the transaction took effect: it may
have been rolled back, it may have raised an error of its own, or its
commit may have gone through and only the acknowledgement been lost.
`attempt` is that view; the caller branches on the `Option`, the store
moves as the transaction did.
-/
import Mathlib

namespace Mosaic.Lib

variable {σ ε β : Type}

/-- What happens to a transaction that would commit. -/
inductive DbOutcome
  | committed
  | rolledBack
  | ackLost
deriving Repr, DecidableEq

/-- The caller's view of a call: its result, or an exception. -/
def attempt (db : DbOutcome) (s : σ) (call : Except ε (β × σ)) : Option β × σ :=
  match db, call with
  | .committed, .ok (b, s') => (some b, s')
  | .ackLost, .ok (_, s') => (none, s')
  | .rolledBack, .ok _ => (none, s)
  | _, .error _ => (none, s)

/-- Either nothing happened, or the call went through, noticed or not. -/
theorem attempt_cases {db : DbOutcome} {s s' : σ} {call : Except ε (β × σ)}
    {b : Option β} (h : attempt db s call = (b, s')) :
    (b = none ∧ s' = s) ∨ ∃ x, call = .ok (x, s') ∧ (b = none ∨ b = some x) := by
  unfold attempt at h
  split at h
  · next x s'' => obtain ⟨rfl, rfl⟩ := h; exact Or.inr ⟨x, rfl, Or.inr rfl⟩
  · next x s'' => obtain ⟨rfl, rfl⟩ := h; exact Or.inr ⟨x, rfl, Or.inl rfl⟩
  · obtain ⟨rfl, rfl⟩ := h
    exact Or.inl ⟨rfl, rfl⟩
  · obtain ⟨rfl, rfl⟩ := h
    exact Or.inl ⟨rfl, rfl⟩

/-- The same, when only the store matters. -/
theorem attempt_store {db : DbOutcome} {s s' : σ} {call : Except ε (β × σ)}
    (h : (attempt db s call).2 = s') : s' = s ∨ ∃ x, call = .ok (x, s') := by
  obtain ⟨-, hs⟩ | ⟨x, hx, -⟩ := attempt_cases (Prod.ext rfl h : attempt db s call = (_, s'))
  · exact Or.inl hs
  · exact Or.inr ⟨x, hx⟩

end Mosaic.Lib
