/-
The states a store keeps.

# Kept states

A `Kept` state is a valid one that is its own projection and is read back as
it is written. The projection of any valid state is kept
(`kept_toPersistedState`), and so is a kept state with another time stamp, as
long as its size stays within the bound (`Kept.restamp`).

# Texts

What is written of a kept state is taken for that state (`stateOf_kept`), and
what any text is taken for is kept (`kept_of_stateOf`). A stamped state that
no longer fits is written and read like any other, but it is not taken for a
state again (`stateOf_overgrown`).
-/
import Mosaic.Web.DemoStore
import Mosaic.Web.Proofs.Persisted

namespace Mosaic.Web

open Lib Js

variable {N : Numerals} {models : List JsStr} {s v : Js N.Double} {t : JsStr}

-- ================================================================= stamps

theorem stamp_plain {text : List Char} (h : ∀ c ∈ text, plainChar c = true) :
    ∀ c ∈ dropZeroMillis text, plainChar c = true := by
  unfold dropZeroMillis
  by_cases hsuffix : ['.', '0', '0', '0', 'Z'].isSuffixOf text = true
  · rw [if_pos hsuffix]
    intro c hc
    rcases List.mem_append.mp hc with hc | hc
    · exact h c (List.mem_of_mem_take hc)
    · rw [List.mem_singleton.mp hc]
      decide
  · rw [if_neg hsuffix]
    exact h

/-- A canonical stamp is plain text. -/
theorem plain_of_canonical (h : canonicalStamp t = true) : ∀ u ∈ t, plainUnit u = true := by
  obtain ⟨date, -, hdate⟩ := (Option.any_eq_true _ _).mp h
  rcases Bool.or_eq_true_iff.mp hdate with heq | heq
  · rw [← beq_iff_eq.mp heq]
    exact (plain_units fun c hc => iso_plain hc).1
  · rw [← beq_iff_eq.mp heq]
    exact (plain_units (stamp_plain fun c hc => iso_plain hc)).1

theorem canonical_iso (date : Instant) : canonicalStamp (JsonText.jsString date.iso) = true := by
  rw [canonicalStamp, dateOf_iso, Option.any_some, Bool.or_eq_true]
  exact Or.inl (beq_self_eq_true _)

theorem canonical_stamp (b : Browser N) (n : Nat) : canonicalStamp (b.stamp n) = true := by
  unfold Browser.stamp
  cases b.now n with
  | none => exact canonical_iso _
  | some candidate =>
      by_cases hc : canonicalStamp candidate = true
      · simp only [if_pos hc]
        exact hc
      · simp only [if_neg hc]
        exact canonical_iso _

theorem length_iso (t : TimeFields) : t.iso.length ≤ 27 := by
  have hyear : (yearText t.year).length ≤ 7 := by
    unfold yearText
    by_cases h : 0 ≤ t.year ∧ t.year ≤ 9999
    · rw [if_pos h, decimal_length]
      decide
    · rw [if_neg h, List.length_cons, decimal_length]
  simp only [TimeFields.iso, TimeFields.stem, List.length_append, List.length_cons,
    List.length_nil, decimal_length]
  omega

theorem length_dropZeroMillis (text : List Char) :
    (dropZeroMillis text).length ≤ text.length := by
  unfold dropZeroMillis
  by_cases h : ['.', '0', '0', '0', 'Z'].isSuffixOf text = true
  · have hle := (List.isSuffixOf_iff_suffix.mp h).length_le
    rw [if_pos h, List.length_append, List.length_take]
    simp only [List.length_cons, List.length_nil] at hle ⊢
    omega
  · rw [if_neg h]

theorem length_canonical (h : canonicalStamp t = true) : t.length ≤ 27 := by
  obtain ⟨date, -, hdate⟩ := (Option.any_eq_true _ _).mp h
  have hiso : ∀ c ∈ date.iso, plainChar c = true := fun c hc => iso_plain hc
  have hlength := length_iso date.toTimeFields
  rcases Bool.or_eq_true_iff.mp hdate with heq | heq
  · rw [← beq_iff_eq.mp heq, (plain_units hiso).2]
    exact hlength
  · rw [← beq_iff_eq.mp heq, (plain_units (stamp_plain hiso)).2]
    exact (length_dropZeroMillis _).trans hlength

theorem bytes_stamp (h : canonicalStamp t = true) :
    bytes N (.string t) = t.length + 2 := by
  rw [bytes, stringify]
  exact size_quote_plain (plain_of_canonical h)

-- =================================================================== kept

/-- A state as the store keeps it. -/
structure Kept (models : List JsStr) (s : Js N.Double) : Prop where
  checks : DemoStateChecks models s
  kept : toPersistedState s = s
  json : isJson N s = true
  distinct : s.Distinct

theorem kept_toPersistedState (hd : v.Distinct) (h : isDemoState models v = true) :
    Kept models (toPersistedState v) := by
  have hchecks := isDemoState_iff.mp h
  have hkeeps := keeps_state hd hchecks
  have hrecord := (shape_json hchecks.shape).1
  exact ⟨checks_persisted hd hchecks, hkeeps.idem, hkeeps.json (defined_of_isRecord hrecord),
    hkeeps.distinct hd⟩

theorem Kept.valid (h : Kept models s) : isDemoState models s = true := isDemoState_iff.mpr h.checks

/-- A kept state is cloned as it is. -/
theorem Kept.clone (h : Kept models s) : cloneValue s = s := by
  rw [cloneValue, parse_stringify h.json h.distinct]
  rfl

theorem updatedAt_key (h : DemoStateChecks models s) :
    js "updatedAt" ∈ s.entries.map (·.1) := by
  have hjson := (shape_json h.shape).2.1 "updatedAt" (by simp)
  rw [get_eq_field] at hjson
  exact List.mem_map.mpr ⟨_, mem_of_field (defined_of_isJson hjson), rfl⟩

/-- The stamp of a state. -/
def stampOf (s : Js N.Double) : JsStr := ((s.get (js "updatedAt")).str?).getD []

theorem stampOf_spec (h : DemoStateChecks models s) :
    s.get (js "updatedAt") = .string (stampOf s) ∧ canonicalStamp (stampOf s) = true := by
  have hshape := h.shape
  simp only [hasShape, Bool.and_eq_true, and_assoc] at hshape
  have hupdated : isCanonicalTimestamp (s.get (js "updatedAt")) = true := by
    tauto
  unfold stampOf
  cases hv : s.get (js "updatedAt") with
  | string x =>
      rw [hv] at hupdated
      exact ⟨rfl, hupdated⟩
  | _ =>
      rw [hv] at hupdated
      cases hupdated

theorem le_weight {fields : List (JsStr × Js N.Double)} {e : JsStr × Js N.Double}
    (h : e ∈ fields) : entryWeight N e.1 e.2 ≤ weight N fields := by
  apply List.le_sum_of_mem
  exact List.mem_map.mpr ⟨e, h, rfl⟩

/-- Another stamp changes the size by its length. -/
theorem bytes_restamp (h : DemoStateChecks models s) (hd : s.Distinct)
    (ht : canonicalStamp t = true) :
    bytes N (restamp s t) + (stampOf s).length = bytes N s + t.length := by
  obtain ⟨hget, hold⟩ := stampOf_spec h
  have hkey := updatedAt_key h
  cases s with
  | record fields =>
      have hkeys : (fields.map (·.1)).Nodup := hd.keys
      have hfield : field fields (js "updatedAt") = .string (stampOf (.record fields)) := hget
      have hentry : ∀ {x : JsStr}, canonicalStamp x = true →
          entryWeight N (js "updatedAt") (.string x)
            = size (quote (js "updatedAt")) + 1 + (x.length + 2) + 1 := by
        intro x hx
        rw [entryWeight, if_neg (by simp [isUndefined]), bytes_stamp hx]
      have hweight := weight_assign hkeys hkey (.string t : Js N.Double)
      rw [hfield, hentry hold, hentry ht] at hweight
      have hdefined : (field fields (js "updatedAt")).isUndefined = false := by
        rw [hfield]
        rfl
      have hle := le_weight (N := N) (mem_of_field hdefined)
      simp only [hfield, hentry hold] at hle
      rw [restamp, Js.set, entries, bytes_of_weight (by omega), bytes_of_weight]
      · omega
      · omega
  | _ => cases hkey

theorem get_restamp (s : Js N.Double) (t : JsStr) {key : String} (hkey : key ≠ "updatedAt") :
    (restamp s t).get (js key) = s.get (js key) := by
  rw [restamp, get_set, if_neg]
  exact fun heq => hkey (js_inj.mp heq).symm

theorem shape_restamp (h : hasShape models s = true) (ht : canonicalStamp t = true) :
    hasShape models (restamp s t) = true := by
  have hstamp : (restamp s t).get (js "updatedAt") = .string t := by
    rw [restamp, get_set, if_pos rfl]
  simp only [hasShape] at h ⊢
  simp only [get_restamp, hstamp, ne_eq, String.reduceEq, not_false_eq_true]
  simp only [Bool.and_eq_true, and_assoc] at h ⊢
  obtain ⟨-, k₁, k₂, k₃, k₄, k₅, k₆, k₇, k₈, k₉, k₁₀, k₁₁, k₁₂, k₁₃, k₁₄, -, k₁₅, k₁₆⟩ := h
  exact ⟨rfl, k₁, k₂, k₃, k₄, k₅, k₆, k₇, k₈, k₉, k₁₀, k₁₁, k₁₂, k₁₃, k₁₄, ht, k₁₅, k₁₆⟩

/-- The stamp and the projection do not disturb each other. -/
theorem toPersistedState_restamp (h : DemoStateChecks models s) (ht : canonicalStamp t = true) :
    toPersistedState (restamp s t) = restamp (toPersistedState s) t := by
  have hdefined : (s.get (js "updatedAt")).isUndefined = false := by
    rw [(stampOf_spec h).1]
    rfl
  rw [toPersistedState_eq (shape_restamp h.shape ht), toPersistedState_eq h.shape, restamp,
    restamp, set_project stateKeys_nodup (by simp [stateKeys]) hdefined rfl]

/-- A valid state with another stamp, as long as it fits. -/
theorem DemoStateChecks.restamp (h : DemoStateChecks models s) (hd : s.Distinct)
    (ht : canonicalStamp t = true)
    (hfits : bytes N s + t.length ≤ MAX_DEMO_STATE_BYTES + (stampOf s).length) :
    DemoStateChecks models (restamp s t) := by
  have hsize := bytes_restamp h hd ht
  refine ⟨shape_restamp h.shape ht, ?_, ?_, ?_, ?_, ?_, ?_⟩
  · show bytes N _ ≤ _
    omega
  · rw [get_restamp s t (by decide)]
    exact h.conversations
  · rw [get_restamp s t (by decide), get_restamp s t (by decide)]
    exact h.requests
  · rw [get_restamp s t (by decide), get_restamp s t (by decide)]
    exact h.creates
  · rw [get_restamp s t (by decide), get_restamp s t (by decide)]
    exact h.active
  · rw [get_restamp s t (by decide), get_restamp s t (by decide)]
    exact h.drafts

theorem isJson_restamp (h : isJson N s = true) : isJson N (restamp s t) = true := by
  rw [restamp, Js.set, isJson_record]
  intro e he
  rcases mem_assign he with he | he
  · cases s with
    | record fields => exact isJson_record.mp h e he
    | _ => cases he
  · rw [he]
    rfl

theorem Kept.restamp (h : Kept models s) (ht : canonicalStamp t = true)
    (hfits : bytes N s + t.length ≤ MAX_DEMO_STATE_BYTES + (stampOf s).length) :
    Kept models (restamp s t) := by
  refine ⟨h.checks.restamp h.distinct ht hfits, ?_, isJson_restamp h.json,
    h.distinct.set (.string t) _⟩
  rw [toPersistedState_restamp h.checks ht, h.kept]

theorem stampOf_toPersistedState (h : DemoStateChecks models s) :
    stampOf (toPersistedState s) = stampOf s := by
  have hget := get_project stateKeys_nodup s
    (show (js "updatedAt", id) ∈ stateKeys (N := N) by simp [stateKeys])
  rw [stampOf, toPersistedState_eq h.shape, hget]
  rfl

/-- Whether a stamped projection still fits. -/
def fits (v : Js N.Double) (t : JsStr) : Bool :=
  serializedByteLength (toPersistedState v) + t.length
    ≤ MAX_DEMO_STATE_BYTES + (stampOf v).length

/-- The stamped projection of a valid state is kept if it fits. -/
theorem kept_stamped (hd : v.Distinct) (h : DemoStateChecks models v)
    (ht : canonicalStamp t = true) (hfits : fits v t = true) :
    Kept models (toPersistedState (restamp v t)) := by
  rw [toPersistedState_restamp h ht]
  apply (kept_toPersistedState hd (isDemoState_iff.mpr h)).restamp ht
  rw [stampOf_toPersistedState h]
  exact of_decide_eq_true hfits

/-- And is not even valid if it does not. -/
theorem invalid_stamped (hd : v.Distinct) (h : DemoStateChecks models v)
    (ht : canonicalStamp t = true) (hfits : fits v t = false) :
    isDemoState models (toPersistedState (restamp v t)) = false := by
  have hkept := kept_toPersistedState hd (isDemoState_iff.mpr h)
  have hsize := bytes_restamp hkept.checks hkept.distinct ht
  rw [stampOf_toPersistedState h] at hsize
  have hlarge := of_decide_eq_false hfits
  apply Bool.eq_false_iff.mpr
  intro hvalid
  have hsmall := (isDemoState_iff.mp hvalid).size
  rw [toPersistedState_restamp h ht] at hsmall
  unfold serializedByteLength at hsmall hlarge
  omega

/-- Fitting or not, it is read back as it is written. -/
theorem parse_stamped (hd : v.Distinct) (h : DemoStateChecks models v)
    (ht : canonicalStamp t = true) :
    parse N (stringify N (toPersistedState (restamp v t)))
      = some (toPersistedState (restamp v t)) := by
  have hkept := kept_toPersistedState hd (isDemoState_iff.mpr h)
  rw [toPersistedState_restamp h ht]
  exact parse_stringify (isJson_restamp hkept.json) (hkept.distinct.set (.string t) _)

-- ============================================================== migration

/-- A conversation that has a cursor is left alone. -/
theorem addCursor_of_valid {requests : Js N.Double} {e : JsStr × Js N.Double}
    (h : isConversation e.2 = true) : addCursor requests e = e := by
  have hjson := (conversation_json h).2.2.2.2.2.2.2.2
  rw [get_eq_field] at hjson
  have hmem : js "active_request_cursor" ∈ e.2.entries.map (·.1) :=
    List.mem_map.mpr ⟨_, mem_of_field (defined_of_isJson hjson), rfl⟩
  rw [addCursor, if_pos (Or.inr hmem)]

/-- Nothing is migrated where every conversation has its cursor. -/
theorem migrate_same (hd : s.Distinct) (hshape : hasShape models s = true)
    (hchecked : checkConversations models [] (s.get (js "conversations")).entries = true) :
    migrateConversationCursors s = s := by
  obtain ⟨hrecord, -, -, hconversations, hrequests, -, -, hversion, -⟩ := shape_json hshape
  have hmap : (s.get (js "conversations")).entries.map
      (addCursor (s.get (js "chatRequests"))) = (s.get (js "conversations")).entries := by
    refine (List.map_congr_left fun e he => ?_).trans (List.map_id _)
    exact addCursor_of_valid (isConversation_of_check hchecked e he)
  have hback : fromEntries (s.get (js "conversations")).entries = s.get (js "conversations") := by
    rw [fromEntries_eq (hd.get _).keys]
    cases hv : s.get (js "conversations") with
    | record fields => rfl
    | _ =>
        rw [hv] at hconversations
        cases hconversations
  have hkey : js "conversations" ∈ s.entries.map (·.1) := by
    have hdefined := defined_of_isRecord hconversations
    rw [get_eq_field] at hdefined
    exact List.mem_map.mpr ⟨_, mem_of_field hdefined, rfl⟩
  rw [migrateConversationCursors, if_neg, if_neg, hmap, hback, set_get hd hkey]
  · rw [hrequests]
    decide
  · rw [hrecord, hversion, hconversations]
    decide

/-- What is written of a kept state is taken for it. -/
theorem stateOf_kept (b : Browser N) (h : Kept b.scenario.modelIds s) :
    stateOf b (.text (stringify N s)) = some s := by
  have hvalid := h.valid
  have hsame := migrate_same h.distinct h.checks.shape h.checks.conversations
  simp only [stateOf, parseRaw, parse_stringify h.json h.distinct, Option.bind_eq_bind,
    Option.bind_some, hsame, if_pos hvalid, h.kept]

/-- What is written of a stamped state that does not fit is taken for
none. -/
theorem stateOf_overgrown (b : Browser N) (hd : v.Distinct)
    (h : DemoStateChecks b.scenario.modelIds v) (ht : canonicalStamp t = true)
    (hfits : fits v t = false) :
    stateOf b (.text (stringify N (toPersistedState (restamp v t)))) = none := by
  have hkept := kept_toPersistedState hd (isDemoState_iff.mpr h)
  have hinvalid := invalid_stamped hd h ht hfits
  have hsame : migrateConversationCursors (toPersistedState (restamp v t))
      = toPersistedState (restamp v t) := by
    rw [toPersistedState_restamp h ht]
    have hget := get_restamp (toPersistedState v) t (show "conversations" ≠ "updatedAt" by decide)
    apply migrate_same (hkept.distinct.set (.string t) _) (shape_restamp hkept.checks.shape ht)
    exact (congrArg (fun x => checkConversations _ [] x.entries) hget).trans
      hkept.checks.conversations
  simp only [stateOf, parseRaw, parse_stamped hd h ht, Option.bind_eq_bind, Option.bind_some,
    hsame, hinvalid, Bool.false_eq_true, if_false]

theorem distinct_cursor {request : Js N.Double} (h : request.Distinct) :
    (if (integer? (request.get (js "next_chunk_index"))).getD 0 > 0 then
      request.get (js "next_chunk_index") else .number (N.ofInt (-1))).Distinct := by
  by_cases hpos : (integer? (request.get (js "next_chunk_index"))).getD 0 > 0
  · rw [if_pos hpos]
    exact h.get _
  · rw [if_neg hpos]
    exact .number _

theorem distinct_migrate (h : v.Distinct) : (migrateConversationCursors v).Distinct := by
  unfold migrateConversationCursors
  by_cases h₁ : v.isRecord = false ∨ isInt (v.get (js "schemaVersion")) 2 = false
      ∨ (v.get (js "conversations")).isRecord = false
  · rw [if_pos h₁]
    exact h
  · rw [if_neg h₁]
    by_cases h₂ : (v.get (js "chatRequests")).isRecord = false
    · rw [if_pos h₂]
      exact h
    · rw [if_neg h₂]
      apply h.set
      apply distinct_fromEntries
      intro e he
      obtain ⟨e', he', rfl⟩ := List.mem_map.mp he
      have hvalue := (h.get (js "conversations")).entry he'
      unfold addCursor
      by_cases h₃ : e'.2.isRecord = false
          ∨ js "active_request_cursor" ∈ e'.2.entries.map (·.1)
      · rw [if_pos h₃]
        exact hvalue
      · simp only [if_neg h₃]
        apply hvalue.set
        by_cases hn : (e'.2.get (js "active_request_id")).isNull = true
        · rw [if_pos hn]
          exact .null
        · rw [if_neg hn]
          apply distinct_cursor
          cases (e'.2.get (js "active_request_id")).str? with
          | none => exact .undefined
          | some id => exact (h.get _).get _

theorem distinct_parseRaw (b : Browser N) {raw : Raw} (h : parseRaw b raw = some v) :
    v.Distinct := by
  cases raw with
  | text text => exact distinct_parse h
  | illFormed x =>
      obtain ⟨data, -, rfl⟩ := Option.map_eq_some_iff.mp h
      exact data.distinct

/-- What a text is taken for is kept. -/
theorem kept_of_stateOf (b : Browser N) {raw : Raw} (h : stateOf b raw = some s) :
    Kept b.scenario.modelIds s := by
  obtain ⟨parsed, hparsed, h⟩ := Option.bind_eq_some_iff.mp h
  by_cases hvalid : isDemoState b.scenario.modelIds (migrateConversationCursors parsed) = true
  · rw [if_pos hvalid] at h
    rw [← Option.some.inj h]
    exact kept_toPersistedState (distinct_migrate (distinct_parseRaw b hparsed)) hvalid
  · rw [if_neg hvalid] at h
    cases h

end Mosaic.Web
