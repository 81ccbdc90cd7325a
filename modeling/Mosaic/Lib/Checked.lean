/-
Fallible computations in the shape the modelled code has: a sequence of
guards that raise, lookups that raise when they come back empty, and a
result.

`raiseIf` is `if c: raise e` and `orRaise` is the `None` check after a
`scalar_one_or_none()`. A success of a whole computation is peeled
apart with the `_eq_ok` lemmas, a failure with the `_eq_error` ones, so
that no proof unfolds a bind.
-/
import Mathlib

namespace Mosaic.Lib

variable {ε α β : Type}

/-- `if c: raise e`. -/
def raiseIf (c : Prop) [Decidable c] (e : ε) : Except ε Unit :=
  if c then .error e else .ok ()

/-- `if o is None: raise e`, else the value. -/
def orRaise (o : Option α) (e : ε) : Except ε α :=
  match o with
  | some a => .ok a
  | none => .error e

/-- A sequence succeeds when its parts do. -/
theorem bind_eq_ok {x : Except ε α} {f : α → Except ε β} {b : β} :
    (x >>= f) = .ok b ↔ ∃ a, x = .ok a ∧ f a = .ok b := by
  cases x with
  | error e => simp [bind, Except.bind]
  | ok a => simp [bind, Except.bind]

/-- Of a check that comes first, only its success matters. -/
theorem seq_eq_ok {x : Except ε Unit} {y : Except ε β} {b : β} :
    (x >>= fun _ => y) = .ok b ↔ x = .ok () ∧ y = .ok b := by
  rw [bind_eq_ok]
  exact ⟨fun ⟨_, hx, hy⟩ => ⟨hx, hy⟩, fun ⟨hx, hy⟩ => ⟨(), hx, hy⟩⟩

/-- A guard is passed when its condition is false. -/
@[simp] theorem raiseIf_eq_ok {c : Prop} [Decidable c] {e : ε} {u : Unit} :
    raiseIf c e = .ok u ↔ ¬ c := by
  unfold raiseIf
  by_cases h : c
  · simp [h]
  · simp [h]

/-- A lookup succeeds when the row is there. -/
@[simp] theorem orRaise_eq_ok {o : Option α} {e : ε} {a : α} :
    orRaise o e = .ok a ↔ o = some a := by
  cases o with
  | none => simp [orRaise]
  | some b => simp [orRaise]

/-- A plain result is itself. -/
@[simp] theorem pure_eq_ok {a b : α} :
    (pure a : Except ε α) = .ok b ↔ a = b := by
  simp [pure, Except.pure]

/-- Translating an error keeps successes. -/
@[simp] theorem mapError_eq_ok {ε' : Type} {x : Except ε α} {f : ε → ε'} {a : α} :
    x.mapError f = .ok a ↔ x = .ok a := by
  cases x with
  | error e => simp [Except.mapError]
  | ok b => simp [Except.mapError]

/-- A sequence fails in its first part or after it. -/
theorem bind_eq_error {x : Except ε α} {f : α → Except ε β} {e : ε} :
    (x >>= f) = .error e ↔ x = .error e ∨ ∃ a, x = .ok a ∧ f a = .error e := by
  cases x with
  | error e' => simp [bind, Except.bind]
  | ok a => simp [bind, Except.bind]

/-- A guard raises its own error. -/
@[simp] theorem raiseIf_eq_error {c : Prop} [Decidable c] {e e' : ε} :
    raiseIf c e = .error e' ↔ c ∧ e = e' := by
  unfold raiseIf
  by_cases h : c
  · simp [h]
  · simp [h]

/-- A failed lookup raises its own error. -/
@[simp] theorem orRaise_eq_error {o : Option α} {e e' : ε} :
    orRaise o e = .error e' ↔ o = none ∧ e = e' := by
  cases o with
  | none => simp [orRaise]
  | some b => simp [orRaise]

/-- A plain result is no failure. -/
@[simp] theorem pure_eq_error {a : α} {e : ε} :
    (pure a : Except ε α) = .error e ↔ False := by
  simp [pure, Except.pure]

/-- A translated failure is the translation of a failure. -/
@[simp] theorem mapError_eq_error {ε' : Type} {x : Except ε α} {f : ε → ε'} {e : ε'} :
    x.mapError f = .error e ↔ ∃ e₀, x = .error e₀ ∧ f e₀ = e := by
  cases x with
  | error e₀ => simp [Except.mapError]
  | ok b => simp [Except.mapError]

/-- A list is mapped when each of its elements is. -/
theorem mapM_isOk_iff {f : α → Except ε β} {l : List α} :
    (∃ bs, l.mapM f = .ok bs) ↔ ∀ a ∈ l, ∃ b, f a = .ok b := by
  induction l with
  | nil => exact ⟨fun _ => by simp, fun _ => ⟨[], rfl⟩⟩
  | cons a l ih =>
      rw [List.forall_mem_cons, ← ih]
      simp only [List.mapM_cons, bind_eq_ok, pure_eq_ok]
      constructor
      · rintro ⟨bs, b, hb, cs, hcs, rfl⟩
        exact ⟨⟨b, hb⟩, cs, hcs⟩
      · rintro ⟨⟨b, hb⟩, cs, hcs⟩
        exact ⟨b :: cs, b, hb, cs, hcs, rfl⟩

theorem mapM_length {f : α → Except ε β} {l : List α} {bs : List β}
    (h : l.mapM f = .ok bs) : bs.length = l.length := by
  induction l generalizing bs with
  | nil =>
      obtain rfl := pure_eq_ok.mp h
      rfl
  | cons a l ih =>
      simp only [List.mapM_cons, bind_eq_ok, pure_eq_ok] at h
      obtain ⟨b, -, cs, hcs, rfl⟩ := h
      simp [ih hcs]

-- ========================================================== error classes

/-- Whatever the call raises satisfies `P`. -/
def Raises (P : ε → Prop) (x : Except ε α) : Prop := ∀ e, x = .error e → P e

namespace Raises

variable {P : ε → Prop}

theorem bind {x : Except ε α} {f : α → Except ε β} (hx : Raises P x)
    (hf : ∀ a, x = .ok a → Raises P (f a)) : Raises P (x >>= f) := by
  intro e he
  rcases bind_eq_error.mp he with he | ⟨a, ha, he⟩
  · exact hx e he
  · exact hf a ha e he

theorem raiseIf {c : Prop} [Decidable c] {e : ε} (he : c → P e) :
    Raises P (Lib.raiseIf c e) := by
  intro e' he'
  obtain ⟨hc, rfl⟩ := raiseIf_eq_error.mp he'
  exact he hc

theorem orRaise {o : Option α} {e : ε} (he : P e) : Raises P (Lib.orRaise o e) := by
  intro e' he'
  obtain ⟨-, rfl⟩ := orRaise_eq_error.mp he'
  exact he

theorem pure (a : α) : Raises P (Pure.pure a : Except ε α) := by
  intro e he
  cases pure_eq_error.mp he

theorem error {e : ε} (he : P e) : Raises P (Except.error e : Except ε α) := by
  intro e' he'
  obtain rfl := Except.error.inj he'
  exact he

theorem mapM {f : α → Except ε β} (hf : ∀ a, Raises P (f a)) (l : List α) :
    Raises P (l.mapM f) := by
  induction l with
  | nil => exact .pure _
  | cons a l ih =>
      rw [List.mapM_cons]
      refine .bind (hf a) fun b _ => ?_
      exact .bind ih fun _ _ => .pure _

theorem mono {Q : ε → Prop} {x : Except ε α} (h : Raises P x) (hPQ : ∀ e, P e → Q e) :
    Raises Q x :=
  fun e he => hPQ e (h e he)

end Raises

/-- Build a value that carries the proof of its own check. -/
def certify (check : Except ε Unit) (build : check = .ok () → α) : Except ε α :=
  match check, build with
  | .ok (), build => .ok (build rfl)
  | .error e, _ => .error e

/-- What comes out is built from a passed check. -/
theorem certify_eq_ok {check : Except ε Unit} {build : check = .ok () → α} {x : α}
    (h : certify check build = .ok x) : ∃ hcheck, x = build hcheck := by
  cases check with
  | ok u => exact ⟨rfl, (Except.ok.inj h).symm⟩
  | error e => cases h

/-- A certified value exists exactly when its check passes. -/
theorem certify_isOk_iff {check : Except ε Unit} {build : check = .ok () → α} :
    (∃ x, certify check build = .ok x) ↔ check = .ok () := by
  cases check with
  | ok u => exact ⟨fun _ => rfl, fun _ => ⟨build rfl, rfl⟩⟩
  | error e => simp [certify]

end Mosaic.Lib
