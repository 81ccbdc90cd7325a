/-
The calls of the demo store, on any storage.

# The invariant

Whatever the storage held and whichever of its calls throw, what the store
serves and what it has stored are kept states (`StoreInv`), and every call
returns the state it remembers (`Returns`). One write can break this, and
the exact condition is `fitsCall`: the bound on the size is checked before the
state is stamped, so a state near the bound may be stored with a longer
stamp than it was checked with. What such a call returns is invalid, and the
next read does not return it (`call_overflow`).

# Reading back

A state is `Settled` when the next read finds it: the fallback serves it, or
the storage holds a text that is taken for it. A call that stores its state
settles it, and reads keep it settled whether or not the storage fails
(`read_settled`). An update that is refused is a read and nothing else. Two
reads in a row agree except over a bare storage, where each makes the
initial state at its own time (`read_again`).
-/
import Mosaic.Web.Proofs.Kept

namespace Mosaic.Web

open Lib Js

variable {N : Numerals} {b : Browser N} {w : DemoWorld N} {s v : Js N.Double} {t : JsStr}

-- ================================================================ scenario

/-- The scenario is a valid state at any time, whoever is signed in. -/
def Scenario.Valid (scenario : Scenario N) : Prop :=
  ∀ stamp authenticated passwordChangeRequired, canonicalStamp stamp = true →
    isDemoState scenario.modelIds
      (((initialState scenario stamp).set (js "authenticated") (.bool authenticated)).set
        (js "passwordChangeRequired") (.bool passwordChangeRequired)) = true

theorem distinct_clone (v : Js N.Double) : (cloneValue v).Distinct := by
  unfold cloneValue
  cases hparse : Js.parse N (Js.stringify N v) with
  | none => exact .undefined
  | some x => exact distinct_parse hparse

theorem distinct_initialState (scenario : Scenario N) (t : JsStr) :
    (initialState scenario t).Distinct := by
  apply Distinct.record
  · simp
  · simp only [List.forall_mem_cons]
    refine ⟨.number _, .number _, .bool _, .bool _, .array ?_, .string _, ?_,
      distinct_clone _, .record scenario.drafts.distinct.keys ?_, .string _, by simp⟩
    · intro x hx
      obtain ⟨y, -, rfl⟩ := List.mem_map.mp hx
      exact .string y
    · apply distinct_fromEntries
      intro e he
      obtain ⟨c, -, rfl⟩ := List.mem_map.mp he
      exact distinct_clone _
    · exact fun e he => scenario.drafts.distinct.entry he

theorem initialState_flags (scenario : Scenario N) (t : JsStr) :
    ((initialState scenario t).set (js "authenticated") (.bool false)).set
      (js "passwordChangeRequired") (.bool true) = initialState scenario t := by
  have hd := distinct_initialState scenario t
  have hauth : (initialState scenario t).get (js "authenticated") = .bool false := by
    simp [initialState, field_cons]
  have hpassword : (initialState scenario t).get (js "passwordChangeRequired") = .bool true := by
    simp [initialState, field_cons]
  rw [← hauth, set_get hd (by simp [initialState, entries]), ← hpassword,
    set_get hd (by simp [initialState, entries])]

theorem initialState_checks {scenario : Scenario N} (h : scenario.Valid)
    (ht : canonicalStamp t = true) :
    DemoStateChecks scenario.modelIds (initialState scenario t) := by
  have hvalid := h t false true ht
  rw [initialState_flags] at hvalid
  exact isDemoState_iff.mp hvalid

/-- The state a legacy snapshot stands for. -/
theorem withFlags_checks {scenario : Scenario N} (h : scenario.Valid)
    (ht : canonicalStamp t = true) (hlegacy : isLegacyDemoState v = true) :
    (withFlags (initialState scenario t) v).Distinct
      ∧ DemoStateChecks scenario.modelIds (withFlags (initialState scenario t) v) := by
  simp only [isLegacyDemoState, Bool.and_eq_true, and_assoc] at hlegacy
  obtain ⟨-, -, -, hauth, hpassword, -⟩ := hlegacy
  unfold withFlags
  cases ha : v.get (js "authenticated") with
  | bool a =>
      cases hp : v.get (js "passwordChangeRequired") with
      | bool p =>
          constructor
          · exact ((distinct_initialState scenario t).set (.bool a) _).set (.bool p) _
          · exact isDemoState_iff.mp (h t a p ht)
      | _ =>
          rw [hp] at hpassword
          cases hpassword
  | _ =>
      rw [ha] at hauth
      cases hauth

-- =============================================================== invariant

/-- What holds of a session between calls. -/
structure StoreInv (b : Browser N) (w : DemoWorld N) : Prop where
  fallback : ∀ s, w.fallbackState = some s → Kept b.scenario.modelIds s
  served : w.useFallback = true → w.fallbackState ≠ none
  unavailable : w.readUnavailable = true → w.useFallback = true
  stored : ∀ s ∈ w.stored, Kept b.scenario.modelIds s

/-- A call has returned the state it remembers. -/
structure Returns (b : Browser N) (r : Js N.Double × DemoWorld N) : Prop where
  inv : StoreInv b r.2
  remembered : r.2.fallbackState = some r.1

theorem Returns.kept {r : Js N.Double × DemoWorld N} (h : Returns b r) :
    Kept b.scenario.modelIds r.1 := h.inv.fallback r.1 h.remembered

/-- The next read finds `s`. -/
def Settled (b : Browser N) (w : DemoWorld N) (s : Js N.Double) : Prop :=
  w.fallbackState = some s
    ∧ (w.useFallback = true ∨ ∃ raw, w.v2 = some raw ∧ stateOf b raw = some s)

theorem Created.inv (h : Created w) : StoreInv b w := by
  constructor
  · intro s hs
    rw [h.fallbackState] at hs
    cases hs
  · intro hu
    rw [h.useFallback] at hu
    cases hu
  · intro hr
    rw [h.readUnavailable] at hr
    cases hr
  · intro s hs
    rw [h.stored] at hs
    cases hs

-- ================================================================= parts

/-- The stored state is remembered, whether or not the storage took it. -/
theorem persist_spec (h : StoreInv b w) (hv : Kept b.scenario.modelIds (toPersistedState v)) :
    Returns b (persist b v w) ∧ Settled b (persist b v w).2 (persist b v w).1 := by
  have hclone := hv.clone
  unfold persist setItem
  by_cases hthrows : b.throws w.calls = true
  · simp only [if_pos hthrows, Bool.false_eq_true, if_false, hclone]
    refine ⟨⟨⟨?_, ?_, ?_, h.stored⟩, rfl⟩, rfl, Or.inl rfl⟩
    · intro s hs
      rw [← Option.some.inj hs]
      exact hv
    · exact fun _ => Option.some_ne_none _
    · exact fun _ => rfl
  · simp only [if_neg hthrows, if_true, hclone]
    refine ⟨⟨⟨?_, ?_, fun hr => hr, ?_⟩, rfl⟩, rfl, Or.inr ⟨_, rfl, stateOf_kept b hv⟩⟩
    · intro s hs
      rw [← Option.some.inj hs]
      exact hv
    · exact fun _ => Option.some_ne_none _
    · intro s hs
      rcases List.mem_append.mp hs with hs | hs
      · exact h.stored s hs
      · rw [List.mem_singleton.mp hs]
        exact hv

theorem initial_spec (hscenario : b.scenario.Valid) (h : StoreInv b w) :
    (initial b w).1.Distinct ∧ DemoStateChecks b.scenario.modelIds (initial b w).1
      ∧ StoreInv b (initial b w).2 := by
  have ht := canonical_stamp b w.readings
  exact ⟨distinct_initialState _ _, initialState_checks hscenario ht,
    ⟨h.fallback, h.served, h.unavailable, h.stored⟩⟩

theorem initial_fallback (w : DemoWorld N) :
    (initial b w).2.fallbackState = w.fallbackState := rfl

/-- From here on the fallback is served. -/
theorem takeOver_spec (h : StoreInv b w) (hv : Kept b.scenario.modelIds (toPersistedState v))
    (unavailable : Bool) :
    let w' := { w with
      fallbackState := some (toPersistedState v), useFallback := true
      readUnavailable := unavailable }
    Returns b (cloneValue (toPersistedState v), w')
      ∧ Settled b w' (cloneValue (toPersistedState v)) := by
  rw [hv.clone]
  refine ⟨⟨⟨?_, ?_, fun _ => rfl, h.stored⟩, rfl⟩, rfl, Or.inl rfl⟩
  · intro s hs
    rw [← Option.some.inj hs]
    exact hv
  · exact fun _ => Option.some_ne_none _

theorem recoverInitial_spec (hscenario : b.scenario.Valid) (h : StoreInv b w)
    (failed : Bool) :
    Returns b (recoverInitial b failed w)
      ∧ Settled b (recoverInitial b failed w).2 (recoverInitial b failed w).1
      ∧ (failed = true → ∀ s, w.fallbackState = some s →
        (recoverInitial b failed w).1 = s) := by
  obtain ⟨hd, hchecks, hinv⟩ := initial_spec hscenario h
  have hkept := kept_toPersistedState hd (isDemoState_iff.mpr hchecks)
  unfold recoverInitial
  cases failed with
  | false =>
      obtain ⟨hreturns, hsettled⟩ := takeOver_spec hinv hkept (false || w.readUnavailable)
      exact ⟨hreturns, hsettled, fun hf => absurd hf Bool.false_ne_true⟩
  | true =>
      cases hf : w.fallbackState with
      | none =>
          obtain ⟨hreturns, hsettled⟩ := takeOver_spec hinv hkept (true || w.readUnavailable)
          refine ⟨hreturns, hsettled, fun _ s hs => ?_⟩
          cases hs
      | some state =>
          have hstate := h.fallback state hf
          have hsame := hstate.kept
          rw [← hsame] at hstate
          obtain ⟨hreturns, hsettled⟩ := takeOver_spec h hstate (true || w.readUnavailable)
          refine ⟨hreturns, hsettled, fun _ s hs => ?_⟩
          show cloneValue (toPersistedState state) = s
          rw [hstate.clone, hsame]
          exact Option.some.inj hs

-- ================================================================== reads

theorem getItem_inv (h : StoreInv b w) (item : DemoWorld N → Option Raw) :
    StoreInv b (getItem b item w).2 :=
  ⟨h.fallback, h.served, h.unavailable, h.stored⟩

/-- A storage call that does not throw finds what is there. -/
theorem getItem_found {item : DemoWorld N → Option Raw} {found : Option Raw} {w' : DemoWorld N}
    (h : getItem b item w = (some found, w')) :
    b.throws w.calls = false ∧ found = item w ∧ w' = { w with calls := w.calls + 1 } := by
  unfold getItem at h
  by_cases hthrows : b.throws w.calls = true
  · rw [if_pos hthrows] at h
    cases (Prod.mk.inj h).1
  · rw [if_neg hthrows] at h
    obtain ⟨hfound, hworld⟩ := Prod.mk.inj h
    exact ⟨Bool.eq_false_iff.mpr hthrows, (Option.some.inj hfound).symm, hworld.symm⟩

/-- A state is remembered that the storage does not hold. -/
theorem remember_spec (h : StoreInv b w) (hs : Kept b.scenario.modelIds s) :
    Returns b (cloneValue s, { w with fallbackState := some s }) := by
  rw [hs.clone]
  refine ⟨⟨?_, ?_, h.unavailable, h.stored⟩, rfl⟩
  · intro x hx
    rw [← Option.some.inj hx]
    exact hs
  · exact fun _ => Option.some_ne_none _

theorem readLegacy_spec (hscenario : b.scenario.Valid) (h : StoreInv b w) :
    Returns b (readLegacy b w)
      ∧ ((getItem b (·.legacy) w).1 ≠ some none →
        Settled b (readLegacy b w).2 (readLegacy b w).1) := by
  have hinv := getItem_inv h (·.legacy)
  unfold readLegacy
  rcases hitem : getItem b (·.legacy) w with ⟨found, w'⟩
  rw [hitem] at hinv
  rcases found with _ | _ | raw
  · obtain ⟨hreturns, hsettled, -⟩ := recoverInitial_spec hscenario hinv true
    exact ⟨hreturns, fun _ => hsettled⟩
  · obtain ⟨hd, hchecks, hnext⟩ := initial_spec hscenario hinv
    exact ⟨remember_spec hnext (kept_toPersistedState hd (isDemoState_iff.mpr hchecks)),
      fun hnone => absurd rfl hnone⟩
  · cases hlegacy : legacyOf b raw with
    | none =>
        simp only [hlegacy]
        obtain ⟨hreturns, hsettled, -⟩ := recoverInitial_spec hscenario hinv false
        exact ⟨hreturns, fun _ => hsettled⟩
    | some parsed =>
        simp only [hlegacy]
        obtain ⟨-, -, hnext⟩ := initial_spec hscenario hinv
        obtain ⟨-, hsnapshot⟩ := Option.filter_eq_some_iff.mp hlegacy
        obtain ⟨hd, hchecks⟩ := withFlags_checks hscenario
          (canonical_stamp b w'.readings) hsnapshot
        obtain ⟨hreturns, hsettled⟩ :=
          persist_spec hnext (kept_toPersistedState hd (isDemoState_iff.mpr hchecks))
        exact ⟨hreturns, fun _ => hsettled⟩

theorem readStorage_spec (hscenario : b.scenario.Valid) (h : StoreInv b w) :
    Returns b (readStorage b w)
      ∧ (((getItem b (·.v2) w).1 = some none →
          (getItem b (·.legacy) (getItem b (·.v2) w).2).1 ≠ some none) →
        Settled b (readStorage b w).2 (readStorage b w).1) := by
  have hinv := getItem_inv h (·.v2)
  unfold readStorage
  rcases hitem : getItem b (·.v2) w with ⟨found, w'⟩
  rw [hitem] at hinv
  rcases found with _ | _ | raw
  · obtain ⟨hreturns, hsettled, -⟩ := recoverInitial_spec hscenario hinv true
    exact ⟨hreturns, fun _ => hsettled⟩
  · obtain ⟨hreturns, hsettled⟩ := readLegacy_spec hscenario hinv
    exact ⟨hreturns, fun hnone => hsettled (hnone rfl)⟩
  · cases hstate : stateOf b raw with
    | none =>
        simp only [hstate]
        obtain ⟨hreturns, hsettled, -⟩ := recoverInitial_spec hscenario hinv false
        exact ⟨hreturns, fun _ => hsettled⟩
    | some state =>
        have hkept := kept_of_stateOf b hstate
        obtain ⟨-, hraw, rfl⟩ := getItem_found hitem
        have hclone := hkept.clone
        simp only [hstate]
        refine ⟨remember_spec hinv hkept, fun _ => ?_⟩
        rw [hclone]
        exact ⟨rfl, Or.inr ⟨raw, hraw.symm, hstate⟩⟩

/-- A read returns the state it remembers. -/
theorem read_spec (hscenario : b.scenario.Valid) (h : StoreInv b w) : Returns b (read b w) := by
  unfold read
  cases hserved : w.served with
  | none => exact (readStorage_spec hscenario h).1
  | some state =>
      unfold DemoWorld.served at hserved
      by_cases hu : w.useFallback = true
      · rw [if_pos hu] at hserved
        have hclone := (h.fallback state hserved).clone
        simp only [hclone]
        exact ⟨h, hserved⟩
      · rw [if_neg hu] at hserved
        cases hserved

/-- A settled state is what a read returns, and it stays settled. -/
theorem read_settled (hscenario : b.scenario.Valid) (h : StoreInv b w) (hs : Settled b w s) :
    (read b w).1 = s ∧ Settled b (read b w).2 s := by
  obtain ⟨hfallback, hsource⟩ := hs
  have hclone := (h.fallback s hfallback).clone
  unfold read DemoWorld.served
  by_cases hu : w.useFallback = true
  · simp only [if_pos hu, hfallback]
    exact ⟨hclone, hfallback, Or.inl hu⟩
  · simp only [if_neg hu]
    obtain ⟨raw, hraw, hstate⟩ := hsource.resolve_left hu
    have hinv := getItem_inv h (·.v2)
    unfold readStorage getItem
    unfold getItem at hinv
    by_cases hthrows : b.throws w.calls = true
    · -- the storage has just failed: the remembered state takes over
      simp only [if_pos hthrows] at hinv ⊢
      obtain ⟨-, hsettled, hsame⟩ := recoverInitial_spec hscenario hinv true
      have hvalue := hsame rfl s hfallback
      rw [hvalue] at hsettled
      exact ⟨hvalue, hsettled⟩
    · simp only [if_neg hthrows, hraw, hstate]
      exact ⟨hclone, rfl, Or.inr ⟨raw, rfl, hstate⟩⟩

-- ============================================================ bare storage

/-- Nothing is remembered for reading or stored, and the storage answers
the next read. -/
def bare (b : Browser N) (w : DemoWorld N) : Bool :=
  !w.useFallback && w.v2.isNone && w.legacy.isNone && !b.throws w.calls
    && !b.throws (w.calls + 1)

/-- The world after a read of a bare storage. -/
def afterBare (b : Browser N) (w : DemoWorld N) : DemoWorld N :=
  { w with
    calls := w.calls + 2, readings := w.readings + 1
    fallbackState :=
      some (toPersistedState (initialState b.scenario (b.stamp w.readings))) }

/-- Such a read makes the initial state. -/
theorem read_bare (hb : bare b w = true) :
    read b w = (cloneValue (toPersistedState (initialState b.scenario (b.stamp w.readings))),
      afterBare b w) := by
  simp only [bare, Bool.and_eq_true, Bool.not_eq_true', Option.isNone_iff_eq_none] at hb
  obtain ⟨⟨⟨⟨hu, hv2⟩, hlegacy⟩, h₁⟩, h₂⟩ := hb
  simp only [read, DemoWorld.served, readStorage, getItem, readLegacy, initial, timestamp,
    afterBare, hu, hv2, hlegacy, h₁, h₂, Bool.false_eq_true, if_false]

theorem bare_afterBare (hb : bare b w = true) :
    bare b (afterBare b w) = (!b.throws (w.calls + 2) && !b.throws (w.calls + 3)) := by
  simp only [bare, Bool.and_eq_true] at hb
  obtain ⟨⟨⟨⟨hu, hv2⟩, hlegacy⟩, -⟩, -⟩ := hb
  simp only [bare, afterBare, hu, hv2, hlegacy, Bool.true_and]

/-- Without a stored text, what a call remembers is read unless the storage
is bare. -/
theorem read_remembered (hscenario : b.scenario.Valid) (h : StoreInv b w)
    (hs : w.fallbackState = some s) (hv2 : w.v2 = none) (hlegacy : w.legacy = none)
    (hb : bare b w = false) : (read b w).1 = s := by
  unfold read DemoWorld.served
  by_cases hu : w.useFallback = true
  · simp only [if_pos hu, hs]
    exact (h.fallback s hs).clone
  · simp only [if_neg hu]
    have hinv := getItem_inv h (·.v2)
    unfold readStorage getItem
    unfold getItem at hinv
    by_cases h₁ : b.throws w.calls = true
    · simp only [if_pos h₁] at hinv ⊢
      exact (recoverInitial_spec hscenario hinv true).2.2 rfl s hs
    · simp only [if_neg h₁, hv2] at hinv ⊢
      have hlater := getItem_inv hinv (·.legacy)
      unfold readLegacy getItem
      unfold getItem at hlater
      by_cases h₂ : b.throws (w.calls + 1) = true
      · simp only [if_pos h₂] at hlater ⊢
        exact (recoverInitial_spec hscenario hlater true).2.2 rfl s hs
      · simp [bare, hu, hv2, hlegacy, h₁, h₂] at hb

/-- What a read returns is settled unless the storage is bare. -/
theorem read_settles (hscenario : b.scenario.Valid) (h : StoreInv b w)
    (hb : bare b w = false) : Settled b (read b w).2 (read b w).1 := by
  unfold read DemoWorld.served
  by_cases hu : w.useFallback = true
  · obtain ⟨s, hs⟩ := Option.ne_none_iff_exists'.mp (h.served hu)
    have hclone := (h.fallback s hs).clone
    simp only [if_pos hu, hs, hclone]
    exact ⟨hs, Or.inl hu⟩
  · simp only [if_neg hu]
    apply (readStorage_spec hscenario h).2
    intro hv2 hlegacy
    obtain ⟨hcall, hv2, -⟩ := getItem_found (Prod.ext hv2 rfl)
    obtain ⟨hcall', hlegacy, -⟩ := getItem_found (Prod.ext hlegacy rfl)
    have hnext : b.throws (w.calls + 1) = false := hcall'
    have habsent : none = w.legacy := hlegacy
    simp [bare, hu, ← hv2, ← habsent, hcall, hnext] at hb

/-- The time an initial state was made at is read off it. -/
theorem initialState_stamp {t t' : JsStr}
    (h : toPersistedState (initialState b.scenario t)
      = toPersistedState (initialState b.scenario t')) : t = t' := by
  have hget : ∀ t, (toPersistedState (initialState b.scenario t)).get (js "updatedAt")
      = .string t := by
    intro t
    simp [toPersistedState, initialState, keep, field_cons, isUndefined]
  have hstamps := (hget t).symm.trans ((congrArg (fun v => v.get (js "updatedAt")) h).trans
    (hget t'))
  injection hstamps

/-- Two reads from here each make the initial state, and the clock moves
between them. -/
def restless (b : Browser N) (w : DemoWorld N) : Bool :=
  bare b w && !b.throws (w.calls + 2) && !b.throws (w.calls + 3)
    && b.stamp w.readings != b.stamp (w.readings + 1)

/-- Only then do two reads in a row differ. -/
theorem read_again (hscenario : b.scenario.Valid) (h : StoreInv b w) :
    (read b (read b w).2).1 = (read b w).1 ↔ restless b w = false := by
  have hfirst := read_spec hscenario h
  by_cases hb : bare b w = true
  · have hread := read_bare hb
    have hagain : restless b w = (bare b (afterBare b w)
        && b.stamp w.readings != b.stamp (w.readings + 1)) := by
      rw [restless, hb, bare_afterBare hb]
      simp only [Bool.true_and]
    have hkept : ∀ n, Kept b.scenario.modelIds
        (toPersistedState (initialState b.scenario (b.stamp n))) := by
      intro n
      have hchecks := initialState_checks hscenario (canonical_stamp b n)
      exact kept_toPersistedState (distinct_initialState _ _) (isDemoState_iff.mpr hchecks)
    rw [hread] at hfirst ⊢
    by_cases hb' : bare b (afterBare b w) = true
    · rw [read_bare hb', hagain, hb', (hkept _).clone, (hkept _).clone]
      simp only [Bool.true_and, bne_eq_false_iff_eq]
      constructor
      · exact fun heq => (initialState_stamp heq).symm
      · intro heq
        rw [heq]
        rfl
    · have hnot := Bool.eq_false_iff.mpr hb'
      rw [hagain, hnot, Bool.false_and]
      simp only [iff_true]
      simp only [bare, Bool.and_eq_true, Option.isNone_iff_eq_none] at hb
      obtain ⟨⟨⟨⟨-, hv2⟩, hlegacy⟩, -⟩, -⟩ := hb
      exact read_remembered hscenario hfirst.inv hfirst.remembered hv2 hlegacy hnot
  · have hnot := Bool.eq_false_iff.mpr hb
    rw [restless, hnot]
    simp only [Bool.false_and, iff_true]
    exact (read_settled hscenario hfirst.inv (read_settles hscenario h hnot)).1

-- ================================================================== calls

/-- The state a call is about to stamp and store, and the stamp. -/
def stamping (b : Browser N) (w : DemoWorld N) : StoreCall N → Option (Js N.Double × JsStr)
  | .read => none
  | .write state =>
      some ((writeBase b state.value w).1, b.stamp (writeBase b state.value w).2.readings)
  | .update mutator =>
      (candidateOf b mutator (read b w).1).map fun candidate =>
        (toPersistedState candidate, b.stamp (read b w).2.readings)
  | .reset => none

/-- What a call stores is within the bound, stamp and all. -/
def fitsCall (b : Browser N) (w : DemoWorld N) (c : StoreCall N) : Bool :=
  (stamping b w c).all fun p => fits p.1 p.2

/-- A call that stores a state, and not just what a read may store. -/
def StoreCall.stores (b : Browser N) (w : DemoWorld N) : StoreCall N → Bool
  | .read => false
  | .write _ => true
  | .update mutator => (candidateOf b mutator (Web.read b w).1).isSome
  | .reset => true

theorem writeBase_spec (hscenario : b.scenario.Valid) (h : StoreInv b w)
    (state : Js.Data N.Double) :
    (writeBase b state.value w).1.Distinct
      ∧ DemoStateChecks b.scenario.modelIds (writeBase b state.value w).1
      ∧ StoreInv b (writeBase b state.value w).2 := by
  unfold writeBase
  by_cases hvalid : isDemoState b.scenario.modelIds state.value = true
  · rw [if_pos hvalid]
    have hkept := kept_toPersistedState state.distinct hvalid
    exact ⟨hkept.distinct, hkept.checks, h⟩
  · rw [if_neg hvalid]
    by_cases hlegacy : isLegacyDemoState state.value = true
    · rw [if_pos hlegacy]
      obtain ⟨-, -, hnext⟩ := initial_spec hscenario h
      obtain ⟨hd, hchecks⟩ := withFlags_checks hscenario (canonical_stamp b w.readings) hlegacy
      exact ⟨hd, hchecks, hnext⟩
    · rw [if_neg hlegacy]
      have hread := read_spec hscenario h
      exact ⟨hread.kept.distinct, hread.kept.checks, hread.inv⟩

theorem timestamp_inv (h : StoreInv b w) : StoreInv b (timestamp b w).2 :=
  ⟨h.fallback, h.served, h.unavailable, h.stored⟩

theorem candidateOf_valid {m : Js N.Double → Option (Js.Data N.Double)} {current c : Js N.Double}
    (h : candidateOf b m current = some c) :
    c.Distinct ∧ isDemoState b.scenario.modelIds c = true := by
  obtain ⟨hc, hvalid⟩ := Option.filter_eq_some_iff.mp h
  obtain ⟨data, -, rfl⟩ := Option.map_eq_some_iff.mp hc
  exact ⟨data.distinct, hvalid⟩

/-- A call that stamps a state stamps a valid one, and stores it. -/
theorem stamping_spec (hscenario : b.scenario.Valid) (h : StoreInv b w) {c : StoreCall N}
    (hc : stamping b w c = some (v, t)) :
    v.Distinct ∧ DemoStateChecks b.scenario.modelIds v ∧ canonicalStamp t = true
      ∧ ∃ w', StoreInv b w' ∧ callStore b w c = persist b (restamp v t) w' := by
  cases c with
  | read => simp only [stamping, reduceCtorEq] at hc
  | reset => simp only [stamping, reduceCtorEq] at hc
  | write state =>
      obtain ⟨hd, hchecks, hinv⟩ := writeBase_spec hscenario h state
      simp only [stamping, Option.some.injEq, Prod.mk.injEq] at hc
      obtain ⟨rfl, rfl⟩ := hc
      exact ⟨hd, hchecks, canonical_stamp b _, _, timestamp_inv hinv, rfl⟩
  | update mutator =>
      have hread := read_spec hscenario h
      simp only [stamping] at hc
      obtain ⟨candidate, hcandidate, hpair⟩ := Option.map_eq_some_iff.mp hc
      obtain ⟨rfl, rfl⟩ := Prod.mk.inj hpair
      obtain ⟨hd, hvalid⟩ := candidateOf_valid hcandidate
      have hkept := kept_toPersistedState hd hvalid
      refine ⟨hkept.distinct, hkept.checks, canonical_stamp b _, _, timestamp_inv hread.inv, ?_⟩
      show update b mutator w = _
      unfold update
      simp only [hcandidate]
      rfl

/-- An update that is refused is a read. -/
theorem update_refused (hscenario : b.scenario.Valid) (h : StoreInv b w)
    {m : Js N.Double → Option (Js.Data N.Double)}
    (hrefused : candidateOf b m (read b w).1 = none) :
    update b m w = read b w := by
  have hclone := (read_spec hscenario h).kept.clone
  unfold update
  simp only [hrefused, hclone]

theorem reset_spec (hscenario : b.scenario.Valid) (h : StoreInv b w) :
    Returns b (reset b w) ∧ Settled b (reset b w).2 (reset b w).1 := by
  obtain ⟨hd, hchecks, hinv⟩ := initial_spec hscenario h
  have hkept := kept_toPersistedState hd (isDemoState_iff.mpr hchecks)
  have hfallback : ∀ s, some (toPersistedState (initial b w).1) = some s →
      Kept b.scenario.modelIds s := by
    intro s hs
    rw [← Option.some.inj hs]
    exact hkept
  have hstored : ∀ s ∈ w.stored ++ [toPersistedState (initial b w).1],
      Kept b.scenario.modelIds s := by
    intro s hs
    rcases List.mem_append.mp hs with hs | hs
    · exact h.stored s hs
    · rw [List.mem_singleton.mp hs]
      exact hkept
  have hclone := hkept.clone
  unfold reset removeItem setItem
  -- the removal and the store that follows may each throw
  by_cases h₁ : b.throws (initial b w).2.calls = true
  · by_cases h₂ : b.throws ((initial b w).2.calls + 1) = true
    · simp only [if_pos h₁, if_pos h₂, Bool.false_eq_true, if_false, hclone]
      exact ⟨⟨⟨hfallback, fun _ => Option.some_ne_none _, fun _ => rfl, h.stored⟩, rfl⟩,
        rfl, Or.inl rfl⟩
    · simp only [if_pos h₁, if_neg h₂, if_true, hclone]
      exact ⟨⟨⟨hfallback, fun _ => Option.some_ne_none _, fun hr => hr, hstored⟩, rfl⟩,
        rfl, Or.inr ⟨_, rfl, stateOf_kept b hkept⟩⟩
  · by_cases h₂ : b.throws ((initial b w).2.calls + 1) = true
    · simp only [if_neg h₁, if_pos h₂, Bool.false_eq_true, if_false, hclone]
      exact ⟨⟨⟨hfallback, fun _ => Option.some_ne_none _, fun _ => rfl, h.stored⟩, rfl⟩,
        rfl, Or.inl rfl⟩
    · simp only [if_neg h₁, if_neg h₂, if_true, hclone]
      exact ⟨⟨⟨hfallback, fun _ => Option.some_ne_none _, fun hr => hr, hstored⟩, rfl⟩,
        rfl, Or.inr ⟨_, rfl, stateOf_kept b hkept⟩⟩

/-- A call whose state fits returns what it remembers, and settles what it
stores. -/
theorem call_spec (hscenario : b.scenario.Valid) (h : StoreInv b w) {c : StoreCall N}
    (hfits : fitsCall b w c = true) :
    Returns b (callStore b w c)
      ∧ (c.stores b w = true → Settled b (callStore b w c).2 (callStore b w c).1) := by
  cases hc : stamping b w c with
  | some p =>
      obtain ⟨v, t⟩ := p
      obtain ⟨hd, hchecks, ht, w', hinv, hcall⟩ := stamping_spec hscenario h hc
      rw [fitsCall, hc] at hfits
      have hstored := persist_spec hinv (kept_stamped hd hchecks ht hfits)
      rw [hcall]
      exact ⟨hstored.1, fun _ => hstored.2⟩
  | none =>
      cases c with
      | read => exact ⟨read_spec hscenario h, fun hs => by cases hs⟩
      | write state => cases hc
      | reset =>
          obtain ⟨hreturns, hsettled⟩ := reset_spec hscenario h
          exact ⟨hreturns, fun _ => hsettled⟩
      | update m =>
          have hrefused : candidateOf b m (read b w).1 = none := Option.map_eq_none_iff.mp hc
          have hread : callStore b w (.update m) = read b w :=
            update_refused hscenario h hrefused
          rw [hread]
          refine ⟨read_spec hscenario h, fun hs => ?_⟩
          rw [StoreCall.stores, hrefused] at hs
          cases hs

/-- A call whose state does not fit returns an invalid one. -/
theorem call_overflow (hscenario : b.scenario.Valid) (h : StoreInv b w) {c : StoreCall N}
    (hfits : fitsCall b w c = false) :
    isDemoState b.scenario.modelIds (callStore b w c).1 = false := by
  cases hc : stamping b w c with
  | none =>
      rw [fitsCall, hc] at hfits
      cases hfits
  | some p =>
      obtain ⟨v, t⟩ := p
      obtain ⟨hd, hchecks, ht, w', -, hcall⟩ := stamping_spec hscenario h hc
      rw [fitsCall, hc] at hfits
      have hclone : cloneValue (toPersistedState (restamp v t))
          = toPersistedState (restamp v t) := by
        rw [cloneValue, parse_stamped hd hchecks ht]
        rfl
      have hreturned : (callStore b w c).1 = cloneValue (toPersistedState (restamp v t)) := by
        rw [hcall]
        rfl
      rw [hreturned, hclone]
      exact invalid_stamped hd hchecks ht hfits

end Mosaic.Web
