/-
Runs of a deterministic step function, and the rules that turn a
one-step argument into a statement about every run.

All nondeterminism of a modelled system (which party moves, what the
clock says, which write is lost) sits in the action, so a run is a fold
over a list of actions and "every interleaving" is "every list".

# The rules

- `run_invariant`: an invariant every step preserves holds after every
  run;
- `run_invariant_of`: the same when only the steps a run condition
  admits preserve it;
- `prefix_run_iff`: when a step outside the condition breaks the property
  at once, the condition is exact: the property holds all along a run if
  and only if every step meets it;
- `runAll_iff_of`: a property of single steps and a run condition that
  agree wherever the invariant holds agree on every run;
- `run_rel`: a reflexive, transitive relation every step respects
  relates the two ends of every run.
-/
import Mathlib

namespace Mosaic.Lib

variable {σ α : Type}

/-- The state after performing `as` from `s`. -/
def run (step : σ → α → σ) (s : σ) (as : List α) : σ := as.foldl step s

/-- Every action of the run meets `good` in the state it is taken in. -/
def RunAll (step : σ → α → σ) (good : σ → α → Prop) : σ → List α → Prop
  | _, [] => True
  | s, a :: as => good s a ∧ RunAll step good (step s a) as

/-- A run condition can be evaluated along a run. -/
instance RunAll.decidable (step : σ → α → σ) (good : σ → α → Prop)
    [∀ s a, Decidable (good s a)] : ∀ s as, Decidable (RunAll step good s as)
  | _, [] => isTrue trivial
  | s, a :: as =>
      have := RunAll.decidable step good (step s a) as
      inferInstanceAs (Decidable (good s a ∧ RunAll step good (step s a) as))

variable {step : σ → α → σ}

@[simp] theorem run_nil (s : σ) : run step s [] = s := rfl

@[simp] theorem run_cons (s : σ) (a : α) (as : List α) :
    run step s (a :: as) = run step (step s a) as := rfl

/-- A run splits where its action list does. -/
theorem run_append (s : σ) (as bs : List α) :
    run step s (as ++ bs) = run step (run step s as) bs := by
  simp [run, List.foldl_append]

/-- The last step of a run, exposed. -/
theorem run_concat (s : σ) (as : List α) (a : α) :
    run step s (as ++ [a]) = step (run step s as) a := by
  rw [run_append]
  rfl

/-- A run condition splits with the run. -/
theorem runAll_append {good : σ → α → Prop} {s : σ} {as bs : List α} :
    RunAll step good s (as ++ bs)
      ↔ RunAll step good s as ∧ RunAll step good (run step s as) bs := by
  induction as generalizing s with
  | nil => simp [RunAll]
  | cons a as ih =>
      simp only [List.cons_append, RunAll, run_cons]
      rw [ih, and_assoc]

theorem RunAll.mono {good good' : σ → α → Prop} (h : ∀ s a, good s a → good' s a) {s : σ}
    {as : List α} (hgood : RunAll step good s as) : RunAll step good' s as := by
  induction as generalizing s with
  | nil => trivial
  | cons a as ih => exact ⟨h s a hgood.1, ih hgood.2⟩

/-- A condition the actions meet in any state. -/
theorem runAll_of_forall {good : σ → α → Prop} {as : List α}
    (h : ∀ a ∈ as, ∀ s, good s a) (s : σ) : RunAll step good s as := by
  induction as generalizing s with
  | nil => trivial
  | cons a as ih =>
      exact ⟨h a List.mem_cons_self s,
        ih (fun b hb => h b (List.mem_cons_of_mem a hb)) (step s a)⟩

/-- The invariant rule for runs whose steps all meet `good`. -/
theorem run_invariant_of {good : σ → α → Prop} {Inv : σ → Prop}
    (hstep : ∀ s a, good s a → Inv s → Inv (step s a))
    {s : σ} {as : List α} (hgood : RunAll step good s as) (h : Inv s) :
    Inv (run step s as) := by
  induction as generalizing s with
  | nil => exact h
  | cons a as ih => exact ih hgood.2 (hstep s a hgood.1 h)

/-- The invariant rule. -/
theorem run_invariant {Inv : σ → Prop}
    (hstep : ∀ s a, Inv s → Inv (step s a)) {s : σ} (h : Inv s)
    (as : List α) : Inv (run step s as) := by
  induction as generalizing s with
  | nil => exact h
  | cons a as ih => exact ih (hstep s a h)

/-- A run condition whose failure breaks `P` at once is exact. -/
theorem prefix_run_iff {good : σ → α → Prop} {Inv P : σ → Prop}
    (hP : ∀ s, Inv s → P s)
    (hstep : ∀ s a, Inv s → good s a → Inv (step s a))
    (hbad : ∀ s a, Inv s → ¬ good s a → ¬ P (step s a))
    {s : σ} (h : Inv s) (as : List α) :
    (∀ bs, bs <+: as → P (run step s bs)) ↔ RunAll step good s as := by
  induction as generalizing s with
  | nil =>
      refine ⟨fun _ => trivial, fun _ bs hbs => ?_⟩
      rw [List.prefix_nil.mp hbs]
      exact hP s h
  | cons a as ih =>
      rw [RunAll]
      by_cases hgood : good s a
      · rw [← ih (hstep s a h hgood)]
        constructor
        · intro hall
          exact ⟨hgood, fun bs hbs => hall (a :: bs) ((List.prefix_cons_inj a).mpr hbs)⟩
        · rintro ⟨-, hall⟩ bs hbs
          cases bs with
          | nil => exact hP s h
          | cons b bs =>
              obtain ⟨rfl, hrest⟩ := List.cons_prefix_cons.mp hbs
              exact hall bs hrest
      · constructor
        · intro hall
          have hone := hall [a] ((List.prefix_cons_inj a).mpr List.nil_prefix)
          exact absurd hone (hbad s a h hgood)
        · rintro ⟨hg, -⟩
          exact absurd hg hgood

/-- What is equivalent at each step is equivalent along the run. -/
theorem runAll_iff_of {good good' : σ → α → Prop} {Inv : σ → Prop}
    (hiff : ∀ s a, Inv s → (good s a ↔ good' s a))
    (hstep : ∀ s a, Inv s → good' s a → Inv (step s a))
    {s : σ} (h : Inv s) {as : List α} : RunAll step good s as ↔ RunAll step good' s as := by
  induction as generalizing s with
  | nil => exact Iff.rfl
  | cons a as ih =>
      rw [RunAll, RunAll, hiff s a h]
      constructor
      · rintro ⟨hgood, hrest⟩
        exact ⟨hgood, (ih (hstep s a h hgood)).mp hrest⟩
      · rintro ⟨hgood, hrest⟩
        exact ⟨hgood, (ih (hstep s a h hgood)).mpr hrest⟩

/-- A preorder each step respects, from a state the invariant admits,
relates the ends of every run. -/
theorem run_rel {Inv : σ → Prop} {R : σ → σ → Prop}
    (hrefl : ∀ s, R s s) (htrans : ∀ {a b c}, R a b → R b c → R a c)
    (hinv : ∀ s a, Inv s → Inv (step s a))
    (hstep : ∀ s a, Inv s → R s (step s a))
    {s : σ} (h : Inv s) (as : List α) : R s (run step s as) := by
  induction as generalizing s with
  | nil => exact hrefl s
  | cons a as ih => exact htrans (hstep s a h) (ih (hinv s a h))

end Mosaic.Lib
