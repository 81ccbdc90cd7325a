/-
Consumers of a numbered log.

A consumer keeps a cursor into a log and takes the entry at the cursor,
nothing else: entries it has taken, entries it is not ready for and
inputs that are not in the log leave it as it is. It may also close,
after which nothing moves it.

# The rule

However the rest of the log reaches such a consumer, with copies of any
of its entries and other inputs in between, it ends where the plain rest
takes it (`Consumes.run_padded`). The argument is one invariant: what the
plain rest would make of the present state, `Consumes.run_rest`, does not
change as inputs arrive, and once the whole rest has gone by there is
none left.
-/
import Mosaic.Lib.Run
import Mathlib

namespace Mosaic.Lib

variable {σ α : Type}

/-- `as` is `rest` with inputs that meet `noise` inserted anywhere. -/
inductive Padded (noise : α → Prop) : List α → List α → Prop
  | nil : Padded noise [] []
  | keep (a : α) {rest as : List α} : Padded noise rest as →
      Padded noise (a :: rest) (a :: as)
  | insert (a : α) {rest as : List α} : noise a → Padded noise rest as →
      Padded noise rest (a :: as)

/-- Nothing inserted. -/
theorem Padded.refl (noise : α → Prop) (as : List α) : Padded noise as as := by
  induction as with
  | nil => exact .nil
  | cons a as ih => exact .keep a ih

/-- The inputs of a padded log are its own and the noise. -/
theorem Padded.mem {noise : α → Prop} {log rest as : List α} (h : Padded noise rest as)
    (hrest : ∀ a ∈ rest, a ∈ log) : ∀ a ∈ as, a ∈ log ∨ noise a := by
  induction h with
  | nil => exact fun a ha => Or.inl (hrest a ha)
  | keep b hpad ih =>
      intro a ha
      rcases List.mem_cons.mp ha with rfl | ha
      · exact Or.inl (hrest a List.mem_cons_self)
      · exact ih (fun c hc => hrest c (List.mem_cons_of_mem b hc)) a ha
  | insert b hnoise hpad ih =>
      intro a ha
      rcases List.mem_cons.mp ha with rfl | ha
      · exact Or.inr hnoise
      · exact ih hrest a ha

/-- A consumer of `log` that stands at `next` and closes at `closed`. -/
structure Consumes (step : σ → α → σ) (next : σ → Nat) (closed : σ → Prop)
    (log : List α) (noise : α → Prop) (Inv : σ → Prop) : Prop where
  inv : ∀ s a, Inv s → a ∈ log ∨ noise a → Inv (step s a)
  shut : ∀ s a, closed s → step s a = s
  /-- What it does not skip is the entry at its cursor. -/
  skips : ∀ s a, Inv s → a ∈ log ∨ noise a →
    step s a = s ∨ (log[next s]? = some a ∧ next (step s a) = next s + 1)
  /-- And that one it takes while it is open. -/
  takes : ∀ s a, Inv s → ¬ closed s → log[next s]? = some a →
    next (step s a) = next s + 1

namespace Consumes

variable {step : σ → α → σ} {next : σ → Nat} {closed : σ → Prop} {log : List α}
  {noise : α → Prop} {Inv : σ → Prop} {s : σ} {as : List α}

theorem run_shut (h : Consumes step next closed log noise Inv) (hs : closed s)
    (as : List α) : run step s as = s := by
  induction as with
  | nil => rfl
  | cons a as ih => rw [run_cons, h.shut s a hs, ih]

theorem run_inv (h : Consumes step next closed log noise Inv) (hs : Inv s)
    (hgood : ∀ a ∈ as, a ∈ log ∨ noise a) : Inv (run step s as) := by
  induction as generalizing s with
  | nil => exact hs
  | cons a as ih =>
      rw [run_cons]
      refine ih (h.inv s a hs (hgood a List.mem_cons_self)) fun b hb => ?_
      exact hgood b (List.mem_cons_of_mem a hb)

/-- An input does not change what the rest of the log comes to. -/
theorem step_rest (h : Consumes step next closed log noise Inv) (hs : Inv s) {a : α}
    (ha : a ∈ log ∨ noise a) :
    run step (step s a) (log.drop (next (step s a))) = run step s (log.drop (next s)) := by
  obtain hskip | ⟨hentry, hnext⟩ := h.skips s a hs ha
  · rw [hskip]
  · obtain ⟨hlt, rfl⟩ := List.getElem?_eq_some_iff.mp hentry
    rw [hnext, List.drop_eq_getElem_cons hlt, run_cons]

theorem run_rest (h : Consumes step next closed log noise Inv) (hs : Inv s)
    (hgood : ∀ a ∈ as, a ∈ log ∨ noise a) :
    run step (run step s as) (log.drop (next (run step s as)))
      = run step s (log.drop (next s)) := by
  induction as generalizing s with
  | nil => rfl
  | cons a as ih =>
      have ha := hgood a List.mem_cons_self
      rw [run_cons, ih (h.inv s a hs ha) fun b hb => hgood b (List.mem_cons_of_mem a hb)]
      exact h.step_rest hs ha

/-- Once the log has gone by from where the consumer stands or before, it
has closed or read it all. -/
theorem run_done (h : Consumes step next closed log noise Inv) (hs : Inv s) {k : Nat}
    {rest : List α} (hrest : log.drop k = rest) (hk : k ≤ next s)
    (hpad : Padded noise rest as) :
    closed (run step s as) ∨ log.length ≤ next (run step s as) := by
  induction hpad generalizing s k with
  | nil =>
      have := List.drop_eq_nil_iff.mp hrest
      exact Or.inr (by rw [run_nil]; omega)
  | insert a hnoise hpad ih =>
      rw [run_cons]
      refine ih (h.inv s a hs (Or.inr hnoise)) hrest ?_
      obtain hskip | ⟨-, hnext⟩ := h.skips s a hs (Or.inr hnoise)
      · rw [hskip]
        exact hk
      · omega
  | @keep a rest as hpad ih =>
      have hlt : k < log.length := by
        by_contra hge
        rw [List.drop_eq_nil_iff.mpr (by omega)] at hrest
        cases hrest
      rw [List.drop_eq_getElem_cons hlt] at hrest
      obtain ⟨rfl, htail⟩ := List.cons.inj hrest
      have hmem : log[k] ∈ log := List.getElem_mem hlt
      by_cases hclosed : closed s
      · rw [h.run_shut hclosed]
        exact Or.inl hclosed
      · rw [run_cons]
        refine ih (h.inv s _ hs (Or.inl hmem)) htail ?_
        by_cases hat : k = next s
        · -- the entry it waits for
          subst hat
          have := h.takes s _ hs hclosed (List.getElem?_eq_getElem hlt)
          omega
        · obtain hskip | ⟨-, hnext⟩ := h.skips s _ hs (Or.inl hmem)
          · rw [hskip]
            omega
          · omega

/-- What reaches the consumer makes no difference beyond the log itself. -/
theorem run_padded (h : Consumes step next closed log noise Inv) (hs : Inv s)
    (hpad : Padded noise (log.drop (next s)) as) :
    run step s as = run step s (log.drop (next s)) := by
  have hgood := hpad.mem fun a ha => List.mem_of_mem_drop ha
  rw [← h.run_rest hs hgood]
  obtain hclosed | hread := h.run_done hs rfl le_rfl hpad
  · exact (h.run_shut hclosed _).symm
  · rw [List.drop_eq_nil_of_le hread, run_nil]

end Consumes

end Mosaic.Lib
