/-
Sessions of the demo store.

# The claim

Whatever the storage held, whichever of its calls throw and whatever the
clock shows: every state that is returned or stored is valid, an update
whose mutator throws or returns no valid state is a read and nothing else,
and a read directly after any other call returns what that call returned.

# Where it fails

- The size is checked before the state is stamped (`fitsCall`), so a state
  near the bound is stored with a longer stamp, and the next read takes it
  for no state at all (`write_overgrown`).
- Over a bare storage a read makes the initial state without storing it, so
  after a refused update the next read makes it again, at another time
  (`drifts_differs`).

A call that avoids both (`faithfulCall`) can be relied on, and no other call
can.

# Samples

The scenario is the one the demo ships, over a runtime whose numbers are the
integers. The full state has one conversation with a long title; its size is
the length of the title and what the rest takes, so nothing of that length
is evaluated.
-/
import Mosaic.Web.DemoScenario
import Mosaic.Web.Proofs.Store

namespace Mosaic.Web

open Lib Js

variable {N : Numerals} {b : Browser N} {w : DemoWorld N} {c : StoreCall N}

-- ================================================================== faith

/-- A mutator throws at the current state, or returns no valid one. -/
def Refused (b : Browser N) (w : DemoWorld N) (m : Js N.Double → Option (Js.Data N.Double)) :
    Prop :=
  ∀ data, m (cloneValue (read b w).1) = some data →
    isDemoState b.scenario.modelIds data.value = false

/-- What a caller may rely on at a call. -/
structure Faithful (b : Browser N) (w : DemoWorld N) (c : StoreCall N) : Prop where
  returned : isDemoState b.scenario.modelIds (callStore b w c).1 = true
  persisted : ∀ s ∈ (callStore b w c).2.stored, isDemoState b.scenario.modelIds s = true
  /-- A refused update is a read. -/
  refused : ∀ m, c = .update m → Refused b w m → callStore b w c = callStore b w .read
  readBack : c ≠ .read → (callStore b (callStore b w c).2 .read).1 = (callStore b w c).1
  /-- What was stored is read back later too, whatever the storage does
  meanwhile. -/
  lasting : c.stores b w = true → ∀ n,
    (callStore b (run (storeStep b) (storeStep b w c) (List.replicate n .read)) .read).1
      = (callStore b w c).1

/-- An update is refused over a bare storage while the clock moves: what it
returns was made for it and is made again at the next read. -/
def driftsCall (b : Browser N) (w : DemoWorld N) : StoreCall N → Bool
  | .update m => (candidateOf b m (read b w).1).isNone && restless b w
  | _ => false

/-- What is stored fits with its stamp, and nothing that was not stored is
read again at another time. -/
def faithfulCall (b : Browser N) (w : DemoWorld N) (c : StoreCall N) : Bool :=
  fitsCall b w c && !driftsCall b w c

theorem refused_iff {m : Js N.Double → Option (Js.Data N.Double)} :
    Refused b w m ↔ candidateOf b m (read b w).1 = none := by
  unfold Refused candidateOf
  cases m (cloneValue (read b w).1) with
  | none => simp
  | some data => simp

theorem stores_of_fits (hc : c ≠ .read) (h : c.stores b w = false) :
    ∃ m, c = .update m ∧ candidateOf b m (read b w).1 = none := by
  cases c with
  | read => exact absurd rfl hc
  | write state => cases h
  | reset => cases h
  | update m => exact ⟨m, rfl, Option.isNone_iff_eq_none.mp (Option.isSome_eq_false_iff.mp h)⟩

/-- What such an update returns is not what is read next. -/
theorem drifts_differs (hscenario : b.scenario.Valid) (h : StoreInv b w)
    (hdrifts : driftsCall b w c = true) :
    c ≠ .read ∧ (callStore b (callStore b w c).2 .read).1 ≠ (callStore b w c).1 := by
  cases c with
  | read => cases hdrifts
  | write state => cases hdrifts
  | reset => cases hdrifts
  | update m =>
      simp only [driftsCall, Bool.and_eq_true, Option.isNone_iff_eq_none] at hdrifts
      have hread : callStore b w (.update m) = read b w :=
        update_refused hscenario h hdrifts.1
      refine ⟨by simp, fun hsame => ?_⟩
      rw [hread] at hsame
      have hquiet := (read_again hscenario h).mp hsame
      rw [hdrifts.2] at hquiet
      cases hquiet

/-- Reads find a settled state however often they are made. -/
theorem settled_reads (hscenario : b.scenario.Valid) (h : StoreInv b w) {s : Js N.Double}
    (hs : Settled b w s) (n : Nat) :
    StoreInv b (run (storeStep b) w (List.replicate n .read))
      ∧ Settled b (run (storeStep b) w (List.replicate n .read)) s := by
  induction n generalizing w with
  | zero => exact ⟨h, hs⟩
  | succ n ih =>
      rw [List.replicate_succ, run_cons]
      exact ih (read_spec hscenario h).inv (read_settled hscenario h hs).2

/-- A call can be relied on if and only if it meets the condition. -/
theorem call_faithful_iff (hscenario : b.scenario.Valid) (h : StoreInv b w) :
    Faithful b w c ↔ faithfulCall b w c = true := by
  rw [faithfulCall, Bool.and_eq_true, Bool.not_eq_true']
  constructor
  · intro hfaithful
    constructor
    · apply Bool.of_not_eq_false
      intro hfits
      have hinvalid := call_overflow hscenario h hfits
      rw [hfaithful.returned] at hinvalid
      cases hinvalid
    · apply Bool.of_not_eq_true
      intro hdrifts
      obtain ⟨hc, hdiffers⟩ := drifts_differs hscenario h hdrifts
      exact hdiffers (hfaithful.readBack hc)
  · rintro ⟨hfits, hdrifts⟩
    obtain ⟨hreturns, hsettles⟩ := call_spec hscenario h hfits
    have hlasting : c.stores b w = true → ∀ n,
        (read b (run (storeStep b) (storeStep b w c) (List.replicate n .read))).1
          = (callStore b w c).1 := by
      intro hstores n
      obtain ⟨hlater, hsettled⟩ := settled_reads hscenario hreturns.inv (hsettles hstores) n
      exact (read_settled hscenario hlater hsettled).1
    refine ⟨hreturns.kept.valid, fun s hs => (hreturns.inv.stored s hs).valid, ?_, ?_, hlasting⟩
    · rintro m rfl hrefused
      exact update_refused hscenario h (refused_iff.mp hrefused)
    · intro hc
      by_cases hstores : c.stores b w = true
      · exact hlasting hstores 0
      · obtain ⟨m, rfl, hnone⟩ := stores_of_fits hc (Bool.eq_false_iff.mpr hstores)
        have hread : callStore b w (.update m) = read b w := update_refused hscenario h hnone
        simp only [driftsCall, hnone, Option.isNone_none, Bool.true_and] at hdrifts
        rw [hread]
        exact (read_again hscenario h).mpr hdrifts

/-- In every session every call can be relied on, if and only if every call
meets the condition. -/
theorem session_faithful_iff (hscenario : b.scenario.Valid) (h : Created w)
    (calls : List (StoreCall N)) :
    RunAll (storeStep b) (Faithful b) w calls
      ↔ RunAll (storeStep b) (fun w c => faithfulCall b w c = true) w calls := by
  apply runAll_iff_of (fun w c hinv => call_faithful_iff hscenario hinv) _ h.inv
  intro w c hinv hgood
  exact (call_spec hscenario hinv (Bool.and_eq_true_iff.mp hgood).1).1.inv

/-- A small state fits with any stamp. -/
theorem fits_of_small {v : Js N.Double} {t : JsStr} {models : List JsStr} (hd : v.Distinct)
    (h : DemoStateChecks models v) (ht : canonicalStamp t = true)
    (hsmall : bytes N v ≤ 10000) : fits v t = true := by
  have hsize := (keeps_state hd h).bytes_le
  have hlength := length_canonical ht
  have hmax : MAX_DEMO_STATE_BYTES = 524288 := rfl
  apply decide_eq_true
  unfold serializedByteLength
  omega

theorem restamp_of_small {v : Js N.Double} {t : JsStr} {models : List JsStr} (hd : v.Distinct)
    (h : DemoStateChecks models v) (ht : canonicalStamp t = true)
    (hsmall : bytes N v ≤ 10000) : DemoStateChecks models (restamp v t) := by
  have hlength := length_canonical ht
  have hmax : MAX_DEMO_STATE_BYTES = 524288 := rfl
  apply h.restamp hd ht
  omega

theorem stamp_eq {t : JsStr} {n : Nat} (hnow : b.now n = some t)
    (ht : canonicalStamp t = true) : b.stamp n = t := by
  rw [Browser.stamp, hnow]
  exact if_pos ht

theorem candidateOf_some {data : Js.Data N.Double} (x : Js N.Double)
    (h : isDemoState b.scenario.modelIds data.value = true) :
    candidateOf b (fun _ => some data) x = some data.value := by
  rw [candidateOf, Option.map_some, Option.filter_some, if_pos h]

/-- An update that stores meets the condition if what it stores fits. -/
theorem faithfulCall_update {m : Js N.Double → Option (Js.Data N.Double)} {x : Js N.Double}
    (h : candidateOf b m (read b w).1 = some x) :
    faithfulCall b w (.update m)
      = fits (toPersistedState x) (b.stamp (read b w).2.readings) := by
  simp only [faithfulCall, fitsCall, driftsCall, stamping, h, Option.map_some, Option.all_some,
    Option.isNone_some, Bool.false_and, Bool.not_false, Bool.and_true]

-- ========================================================= overgrown states

/-- The initial state a corrupt storage is replaced with is valid. -/
theorem recoverInitial_valid (hscenario : b.scenario.Valid) (w : DemoWorld N) :
    isDemoState b.scenario.modelIds (recoverInitial b false w).1 = true := by
  have hinitial := initialState_checks hscenario (canonical_stamp b w.readings)
  have hkept := kept_toPersistedState (distinct_initialState _ _) (isDemoState_iff.mpr hinitial)
  have hreturned : (recoverInitial b false w).1
      = cloneValue (toPersistedState (initialState b.scenario (b.stamp w.readings))) := rfl
  rw [hreturned, hkept.clone]
  exact hkept.valid

/-- A stamped state that does not fit is not read back: the next read makes
the initial state. -/
theorem read_overgrown {v : Js N.Double} {t : JsStr} (hscenario : b.scenario.Valid)
    (hd : v.Distinct) (hchecks : DemoStateChecks b.scenario.modelIds v)
    (ht : canonicalStamp t = true) (hfits : fits v t = false)
    (hthrows : ∀ n, b.throws n = false) (havailable : w.readUnavailable = false) :
    isDemoState b.scenario.modelIds (read b (persist b (restamp v t) w).2).1 = true := by
  have hnone := stateOf_overgrown b hd hchecks ht hfits
  simp only [persist, setItem, hthrows, read, DemoWorld.served, havailable, readStorage, getItem,
    hnone, Bool.false_eq_true, if_false, if_true]
  exact recoverInitial_valid hscenario _

/-- Such a write returns and stores an invalid state, and the next read
returns another one. -/
theorem write_overgrown (state : Js.Data N.Double) (hscenario : b.scenario.Valid)
    (h : StoreInv b w) (hvalid : isDemoState b.scenario.modelIds state.value = true)
    (hfits : fits (toPersistedState state.value) (b.stamp w.readings) = false)
    (hthrows : ∀ n, b.throws n = false) (havailable : w.readUnavailable = false) :
    isDemoState b.scenario.modelIds (callStore b w (.write state)).1 = false
      ∧ (∃ s ∈ (callStore b w (.write state)).2.stored,
        isDemoState b.scenario.modelIds s = false)
      ∧ (callStore b (callStore b w (.write state)).2 .read).1
        ≠ (callStore b w (.write state)).1 := by
  have hkept := kept_toPersistedState state.distinct hvalid
  have hbase : writeBase b state.value w = (toPersistedState state.value, w) := by
    rw [writeBase, if_pos hvalid]
  have hcall : callStore b w (.write state)
      = persist b (restamp (toPersistedState state.value) (b.stamp w.readings))
        (timestamp b w).2 := by
    have hwrite : callStore b w (.write state)
        = persist b (restamp (writeBase b state.value w).1
          (b.stamp (writeBase b state.value w).2.readings))
          (timestamp b (writeBase b state.value w).2).2 := rfl
    rw [hwrite, hbase]
  have hunfit : fitsCall b w (.write state) = false := by
    simp only [fitsCall, stamping, hbase, Option.all_some]
    exact hfits
  have hinvalid := call_overflow hscenario h hunfit
  have hread := read_overgrown (w := (timestamp b w).2) hscenario hkept.distinct hkept.checks
    (canonical_stamp b w.readings) hfits hthrows havailable
  rw [← hcall] at hread
  refine ⟨hinvalid, ?_, fun hsame => ?_⟩
  · have hstored : (callStore b w (.write state)).2.stored = w.stored
        ++ [toPersistedState (restamp (toPersistedState state.value) (b.stamp w.readings))] := by
      simp only [hcall, persist, setItem, hthrows, Bool.false_eq_true, if_false]
      rfl
    refine ⟨_, ?_, invalid_stamped hkept.distinct hkept.checks (canonical_stamp b w.readings)
      hfits⟩
    rw [hstored]
    exact List.mem_append_right _ List.mem_cons_self
  · have hagain : isDemoState b.scenario.modelIds
        (callStore b (callStore b w (.write state)).2 .read).1 = true := hread
    rw [hsame, hinvalid] at hagain
    cases hagain

-- ================================================================ numbers

def wholeText : Int → List Char
  | .ofNat n => Nat.toDigits 10 n
  | .negSucc n => '-' :: Nat.toDigits 10 (n + 1)

def wholeRead : List Char → Int
  | '-' :: digits => -Int.ofNat (Nat.ofDigitChars 10 digits 0)
  | digits => Int.ofNat (Nat.ofDigitChars 10 digits 0)

theorem wholeText_literal (d : Int) {rest : List Char} (hrest : JsonText.Ends rest) :
    JsonText.numberLiteral (wholeText d ++ rest) = some (wholeText d, rest) := by
  cases d with
  | ofNat n => exact JsonText.numberLiteral_digits n hrest
  | negSucc n =>
      show JsonText.numberLiteral ('-' :: (Nat.toDigits 10 (n + 1) ++ rest)) = _
      simp only [JsonText.numberLiteral, List.take_succ_cons, List.take_zero, List.filter_cons,
        beq_self_eq_true, if_true, List.filter_nil, List.length_singleton,
        List.drop_succ_cons, List.drop_zero, JsonText.integerPart_digits (n + 1) hrest,
        JsonText.fractionPart_ends hrest, JsonText.exponentPart_ends hrest,
        Option.bind_eq_bind, Option.bind_some, List.append_nil]
      rfl

theorem wholeRead_text (d : Int) : wholeRead (wholeText d) = d := by
  cases d with
  | ofNat n =>
      show wholeRead (Nat.toDigits 10 n) = n
      unfold wholeRead
      split
      · next digits heq =>
          have hminus : ('-' : Char).isDigit = true :=
            JsonText.isDigit_toDigits (n := n) (by rw [heq]; exact List.mem_cons_self)
          cases hminus
      · rw [Nat.ofDigitChars_ten_toDigits]
        rfl
  | negSucc n =>
      show -Int.ofNat (Nat.ofDigitChars 10 (Nat.toDigits 10 (n + 1)) 0) = _
      rw [Nat.ofDigitChars_ten_toDigits]
      rfl

/-- A runtime whose numbers are the integers. -/
def wholeNumbers : Numerals where
  Double := Int
  finite _ := true
  integer := some
  ofInt := id
  text := wholeText
  read := wholeRead
  integer_finite _ := rfl
  integer_inj h h' := Option.some.inj (h.trans h'.symm)
  integer_ofInt _ := rfl
  text_literal _ hrest := wholeText_literal _ hrest
  read_text _ := wholeRead_text _

theorem entryWeight_defined (k : JsStr) {v : Js N.Double} (h : v.isUndefined = false) :
    entryWeight N k v = size (quote k) + 1 + bytes N v + 1 := by
  rw [entryWeight, if_neg (by simp [h])]

-- =============================================================== scenario

def sampleStamp : JsStr := js "2026-08-20T12:00:00.000Z"

/-- The initial state, signed in or not. -/
def scenarioState (authenticated passwordChangeRequired : Bool) (t : JsStr) : Js N.Double :=
  .record
    [(js "schemaVersion", .number (N.ofInt 2)), (js "seed", .number (N.ofInt DEMO_SEED)),
      (js "authenticated", .bool authenticated),
      (js "passwordChangeRequired", .bool passwordChangeRequired),
      (js "favorites", .array []), (js "selectedModelId", .string (js "qwen-3-5")),
      (js "conversations", .record
        [(js "conversation-qwen-3-5-001", planningConversation.value),
          (js "conversation-qwen-3-5-002", summaryConversation.value)]),
      (js "chatRequests", .record []), (js "drafts", .record []),
      (js "updatedAt", .string t)]

/-- The conversations are cloned as they are. -/
theorem scenario_clones :
    cloneValue (N := N) planningConversation.value = planningConversation.value
      ∧ cloneValue (N := N) summaryConversation.value = summaryConversation.value
      ∧ cloneValue (N := N) noEntries.value = noEntries.value := by
  have hclone : ∀ data : Js.Data N.Double, isJson N data.value = true →
      cloneValue data.value = data.value := by
    intro data hjson
    rw [cloneValue, parse_stringify hjson data.distinct]
    rfl
  exact ⟨hclone _ rfl, hclone _ rfl, hclone _ rfl⟩

theorem scenarioState_eq (a p : Bool) (t : JsStr) :
    ((initialState (N := N) DEMO_SCENARIO t).set (js "authenticated") (.bool a)).set
      (js "passwordChangeRequired") (.bool p) = scenarioState a p t := by
  obtain ⟨hplanning, hsummary, hnone⟩ := scenario_clones (N := N)
  have hids : (planningConversation : Js.Data N.Double).value.get (js "conversation_id")
        = .string (js "conversation-qwen-3-5-001")
      ∧ (summaryConversation : Js.Data N.Double).value.get (js "conversation_id")
        = .string (js "conversation-qwen-3-5-002") := by
    simp [planningConversation, summaryConversation, scenarioConversation, field_cons]
  simp only [initialState, DEMO_SCENARIO, Scenario.conversationEntries, List.map_cons,
    List.map_nil, hplanning, hsummary, hnone, hids, str?, Option.getD_some]
  rw [fromEntries_eq (by simp)]
  simp [Js.set, entries, assign, scenarioState, noEntries]

theorem entryWeight_bool (k : JsStr) (x : Bool) :
    entryWeight N k (.bool x) ≤ entryWeight N k (.bool false) := by
  cases x with
  | false => exact le_refl _
  | true =>
      apply entryWeight_le (v := .bool false) (w := .bool true) (fun h => h)
      show size ['t', 'r', 'u', 'e'] ≤ size ['f', 'a', 'l', 's', 'e']
      decide

theorem distinct_scenarioState (a p : Bool) (t : JsStr) :
    (scenarioState (N := N) a p t).Distinct := by
  rw [← scenarioState_eq]
  exact ((distinct_initialState DEMO_SCENARIO t).set (.bool a) _).set (.bool p) _

/-- Two flags take the most room when they are off. -/
theorem bytes_flags (before after : List (JsStr × Js N.Double)) (k k' : JsStr) (a p : Bool) :
    bytes N (.record (before ++ (k, .bool a) :: (k', .bool p) :: after))
      ≤ bytes N (.record (before ++ (k, .bool false) :: (k', .bool false) :: after)) := by
  have ha := entryWeight_bool (N := N) k a
  have hp := entryWeight_bool (N := N) k' p
  simp only [bytes_record, weight_append, weight_cons]
  omega

theorem scenarioState_bytes (a p : Bool) :
    bytes wholeNumbers (scenarioState a p sampleStamp) ≤ 10000 := by
  have hbase : bytes wholeNumbers (scenarioState false false sampleStamp) ≤ 10000 := by
    decide +kernel
  exact (bytes_flags [_, _] _ _ _ a p).trans hbase

theorem scenarioState_conversations :
    checkConversations (N := wholeNumbers) scenarioModelIds []
      [(js "conversation-qwen-3-5-001", planningConversation.value),
        (js "conversation-qwen-3-5-002", summaryConversation.value)] = true := by
  decide +kernel

theorem canonical_sampleStamp : canonicalStamp sampleStamp = true := by
  decide +kernel

theorem scenarioState_checks (a p : Bool) :
    DemoStateChecks (N := wholeNumbers) scenarioModelIds (scenarioState a p sampleStamp) := by
  have hversion : wholeNumbers.integer (wholeNumbers.ofInt 2) = some 2 := rfl
  have hseed : wholeNumbers.integer (wholeNumbers.ofInt DEMO_SEED) = some DEMO_SEED := rfl
  have hmodel : js "qwen-3-5" ≠ [] ∧ js "qwen-3-5" ∈ scenarioModelIds := by
    decide
  have hidle : ∀ requests : Js wholeNumbers.Double,
      checkActive requests (js "conversation-qwen-3-5-001", planningConversation.value) = true
      ∧ checkActive requests (js "conversation-qwen-3-5-002", summaryConversation.value)
        = true := by
    intro requests
    simp [checkActive, planningConversation, summaryConversation, scenarioConversation,
      field_cons, isNull]
  constructor
  · simp [hasShape, scenarioState, field_cons, isRecord, isInt, integer?, isBool, isArray,
      elements, isNull, entries, isCanonicalTimestamp, str?, isNonEmptyString, isModelId,
      canonical_sampleStamp, hversion, hseed, hmodel]
    decide
  · exact (scenarioState_bytes a p).trans (by decide)
  · simp only [scenarioState, get_record, field_cons, js_inj, String.reduceEq, if_false, if_true,
      entries]
    exact scenarioState_conversations
  · simp [scenarioState, field_cons, entries]
  · simp [scenarioState, field_cons, entries]
  · simp [scenarioState, field_cons, entries, hidle]
  · simp [scenarioState, field_cons, entries]

theorem DEMO_SCENARIO_valid : ( DEMO_SCENARIO (N := wholeNumbers)).Valid := by
  intro t a p ht
  have hstamped : restamp (N := wholeNumbers) (scenarioState a p sampleStamp) t
      = scenarioState a p t := by
    simp [restamp, Js.set, scenarioState, entries, assign]
  show isDemoState (N := wholeNumbers) scenarioModelIds _ = true
  rw [scenarioState_eq, ← hstamped]
  exact isDemoState_iff.mpr (restamp_of_small (distinct_scenarioState a p sampleStamp)
    (scenarioState_checks a p) ht (scenarioState_bytes a p))

-- ============================================================ a long title

/-- A conversation of no messages. -/
def titledConversation (title : JsStr) : Js N.Double :=
  .record
    [(js "conversation_id", .string (js "c")),
      (js "product_model_id", .string (js "qwen-3-5")), (js "title", .string title),
      (js "messages", .array []), (js "updated_at", .string (js "2026-08-20T12:00:00Z")),
      (js "active_request_id", .null), (js "active_request_cursor", .null)]

/-- A state of one conversation, with a stamp of twenty units. -/
def titledState (title : JsStr) : Js N.Double :=
  .record
    [(js "schemaVersion", .number (N.ofInt 2)), (js "seed", .number (N.ofInt DEMO_SEED)),
      (js "authenticated", .bool true), (js "passwordChangeRequired", .bool false),
      (js "favorites", .array []), (js "selectedModelId", .null),
      (js "conversations", .record [(js "c", titledConversation title)]),
      (js "chatRequests", .record []), (js "drafts", .record []),
      (js "updatedAt", .string (js "2026-08-20T12:00:00Z"))]

theorem distinct_titledState (title : JsStr) : (titledState (N := N) title).Distinct := by
  apply Distinct.record
  · simp
  · simp only [List.forall_mem_cons]
    refine ⟨.number _, .number _, .bool _, .bool _, .array (by simp), .null, ?_,
      .record List.nodup_nil (by simp), .record List.nodup_nil (by simp), .string _, by simp⟩
    apply Distinct.record (by simp)
    simp only [List.forall_mem_singleton]
    apply Distinct.record
    · simp
    · simp only [List.forall_mem_cons]
      exact ⟨.string _, .string _, .string _, .array (by simp), .string _, .null, .null, by simp⟩

/-- What grows with the title is the title. -/
theorem bytes_titledState {title : JsStr} (h : ∀ u ∈ title, plainUnit u = true) :
    bytes wholeNumbers (titledState title) = title.length + 380 := by
  have htitle : ∀ {x : JsStr}, (∀ u ∈ x, plainUnit u = true) →
      bytes wholeNumbers (.string x) = x.length + 2 := by
    intro x hx
    rw [bytes, stringify, size_quote_plain hx]
  have hempty := htitle (x := []) (by simp)
  have hconversation : bytes wholeNumbers (titledConversation title)
      = title.length + bytes wholeNumbers (titledConversation []) := by
    simp only [titledConversation, bytes_record, weight_cons,
      entryWeight_defined (js "title") (v := .string _) rfl, htitle h, hempty, List.length_nil]
    omega
  have hbase : bytes wholeNumbers (titledState []) = 380 := by
    decide +kernel
  simp only [titledState, bytes_record, weight_cons,
    entryWeight_defined (js "conversations") (v := .record _) rfl,
    entryWeight_defined (js "c") (v := titledConversation _) rfl, hconversation] at hbase ⊢
  omega

theorem titledState_checks {title : JsStr} (h : title ≠ [])
    (hsize : bytes N (titledState title) ≤ MAX_DEMO_STATE_BYTES) :
    DemoStateChecks (N := N) scenarioModelIds (titledState title) := by
  have hstamp : canonicalStamp (js "2026-08-20T12:00:00Z") = true := by
    decide +kernel
  have hversion : N.integer (N.ofInt 2) = some 2 := N.integer_ofInt (by decide)
  have hseed : N.integer (N.ofInt DEMO_SEED) = some DEMO_SEED := N.integer_ofInt (by decide)
  have hnames : js "c" ≠ [] ∧ js "qwen-3-5" ≠ [] ∧ js "qwen-3-5" ∈ scenarioModelIds := by
    decide
  constructor
  · simp [hasShape, titledState, field_cons, isRecord, isInt, integer?, isBool, isArray, elements,
      isNull, entries, isCanonicalTimestamp, str?, hstamp, hversion, hseed]
    decide
  · exact hsize
  · simp [titledState, field_cons, entries, checkConversations, titledConversation,
      isConversation, isRecord, isNonEmptyString, str?, isArray, elements, isCanonicalTimestamp,
      isText, isModelId, seeMessages, hstamp, hnames, h]
  · simp [titledState, field_cons, entries]
  · simp [titledState, field_cons, entries]
  · simp [titledState, field_cons, entries, checkActive, titledConversation, isNull]
  · simp [titledState, field_cons, entries]

theorem titledState_kept (title : JsStr) :
    toPersistedState (N := N) (titledState title) = titledState title := by
  simp [toPersistedState, titledState, titledConversation, keep, field_cons, mapEntries,
    persistedConversation, entries, elements, fromEntries, assign, isUndefined]

/-- The state with a title, as a caller passes it. -/
def titledData (title : JsStr) : Js.Data N.Double :=
  ⟨titledState title, distinct_titledState title⟩

theorem stampOf_titledState (title : JsStr) :
    stampOf (titledState (N := N) title) = js "2026-08-20T12:00:00Z" := by
  simp [stampOf, titledState, field_cons, str?]

/-- A state that is full does not fit with a longer stamp. -/
theorem titledState_unfit {title t : JsStr} (ht : t.length = 24)
    (hfull : bytes N (titledState title) = MAX_DEMO_STATE_BYTES) :
    fits (N := N) (toPersistedState (titledState title)) t = false := by
  have hold : (js "2026-08-20T12:00:00Z").length = 20 := by
    decide
  rw [fits, titledState_kept, titledState_kept, stampOf_titledState, hold, ht]
  apply decide_eq_false
  unfold serializedByteLength
  omega

/-- The longest title that fits. -/
def longTitle : JsStr := List.replicate 523908 97

theorem longTitle_full :
    bytes wholeNumbers (titledState longTitle) = MAX_DEMO_STATE_BYTES := by
  have hplain : ∀ u ∈ longTitle, plainUnit u = true := by
    intro u hu
    rw [List.eq_of_mem_replicate hu]
    decide
  have hlength : longTitle.length = 523908 := List.length_replicate
  rw [bytes_titledState hplain, hlength]
  decide

theorem longTitle_checks :
    DemoStateChecks (N := wholeNumbers) scenarioModelIds (titledState longTitle) := by
  apply titledState_checks _ (le_of_eq longTitle_full)
  apply List.ne_nil_of_length_pos
  rw [longTitle, List.length_replicate]
  decide

-- =============================================================== sessions

/-- A browser whose storage fails at its third and sixth call. -/
def sampleBrowser : Browser wholeNumbers where
  scenario := DEMO_SCENARIO
  parseIllFormed _ := none
  throws n := n == 2 || n == 5
  now _ := some sampleStamp
  date _ := ⟨⟨2026, 8, 20, 12, 0, 0, 0⟩, by decide⟩

/-- A browser whose storage does not fail, and whose clock moves on after
its first reading. -/
def steadyBrowser : Browser wholeNumbers where
  scenario := DEMO_SCENARIO
  parseIllFormed _ := none
  throws _ := false
  now n := if n = 0 then some sampleStamp else some (js "2026-08-20T12:00:01.000Z")
  date _ := ⟨⟨2026, 8, 20, 12, 0, 0, 0⟩, by decide⟩

/-- A new tab over an empty storage. -/
def emptyTab : DemoWorld wholeNumbers where
  v2 := none
  legacy := none
  calls := 0
  readings := 0
  fallbackState := none
  useFallback := false
  readUnavailable := false
  stored := []

/-- A new tab, with a snapshot of the first version in its storage. -/
def sampleTab : DemoWorld wholeNumbers :=
  { emptyTab with
    legacy := some (.text ("\x7b\"schemaVersion\":1,\"seed\":8202026,\"authenticated\":true,"
      ++ "\"passwordChangeRequired\":false,\"updatedAt\":\"2026-08-20T12:00:00Z\"\x7d").toList) }

theorem emptyTab_created : Created emptyTab := ⟨rfl, rfl, rfl, rfl⟩

theorem sampleTab_created : Created sampleTab := ⟨rfl, rfl, rfl, rfl⟩

/-- Signed in, and with a new stamp to come. -/
def signedIn : Js.Data wholeNumbers.Double where
  value := scenarioState true false sampleStamp
  distinct := distinct_scenarioState true false sampleStamp

/-- The mutator throws. -/
def failedUpdate : StoreCall wholeNumbers := .update fun _ => none

/-- The snapshot is read, one update is refused and one is stored, and the
demo is reset. -/
def sampleCalls : List (StoreCall wholeNumbers) :=
  [.read, failedUpdate, .update fun _ => some signedIn, .read, .reset, .read]

/-- Each of the calls meets the condition in any world. -/
theorem sampleCalls_faithful : RunAll (storeStep sampleBrowser)
    (fun w c => faithfulCall sampleBrowser w c = true) sampleTab sampleCalls := by
  have hstamp : ∀ n, sampleBrowser.stamp n = sampleStamp :=
    fun n => stamp_eq rfl canonical_sampleStamp
  have hchecks := scenarioState_checks true false
  have hvalid := isDemoState_iff.mpr hchecks
  have hcandidate : ∀ x, candidateOf sampleBrowser (fun _ => some signedIn) x
      = some (scenarioState true false sampleStamp) := fun x => candidateOf_some x hvalid
  have hfits : fits (toPersistedState (N := wholeNumbers) (scenarioState true false sampleStamp))
      sampleStamp = true := by
    have hkept := kept_toPersistedState signedIn.distinct hvalid
    have hsmaller := (keeps_state signedIn.distinct hchecks).bytes_le
    exact fits_of_small hkept.distinct hkept.checks canonical_sampleStamp
      (hsmaller.trans (scenarioState_bytes true false))
  apply runAll_of_forall
  intro c hc w
  simp only [sampleCalls, List.mem_cons, List.not_mem_nil, or_false] at hc
  rcases hc with rfl | rfl | rfl | rfl | rfl | rfl
  · rfl
  · simp [faithfulCall, fitsCall, driftsCall, stamping, failedUpdate, candidateOf, restless,
      hstamp]
  · rw [faithfulCall_update (hcandidate _), hstamp, hfits]
  · rfl
  · rfl
  · rfl

theorem failedUpdate_drifts : driftsCall steadyBrowser emptyTab failedUpdate = true := by
  have hrestless : restless steadyBrowser emptyTab = true := by
    decide +kernel
  simp only [driftsCall, failedUpdate, candidateOf, Option.map_none, Option.filter_none,
    Option.isNone_none, hrestless, Bool.and_self]

/-- A session that can be relied on all along, and one that cannot. -/
theorem session_faithful_iff_sample :
    RunAll (storeStep sampleBrowser) (Faithful sampleBrowser) sampleTab sampleCalls
      ∧ ¬ RunAll (storeStep steadyBrowser) (Faithful steadyBrowser) emptyTab
        [failedUpdate] := by
  constructor
  · exact (session_faithful_iff (b := sampleBrowser) DEMO_SCENARIO_valid sampleTab_created
      sampleCalls).mpr sampleCalls_faithful
  · intro hfaithful
    obtain ⟨hmeets, -⟩ := (session_faithful_iff (b := steadyBrowser) DEMO_SCENARIO_valid
      emptyTab_created [failedUpdate]).mp hfaithful
    rw [faithfulCall, failedUpdate_drifts, Bool.not_true, Bool.and_false] at hmeets
    cases hmeets

/-- In a new tab a write of the full state returns and stores an invalid one
and loses it at the next read; and after an update whose mutator throws the
next read returns another state than the update. -/
theorem session_unfaithful :
    (isDemoState scenarioModelIds (titledState (N := wholeNumbers) longTitle) = true
      ∧ isDemoState scenarioModelIds
        (callStore steadyBrowser emptyTab (.write (titledData longTitle))).1 = false
      ∧ (∃ s ∈ (callStore steadyBrowser emptyTab (.write (titledData longTitle))).2.stored,
        isDemoState scenarioModelIds s = false)
      ∧ (callStore steadyBrowser
          (callStore steadyBrowser emptyTab (.write (titledData longTitle))).2 .read).1
        ≠ (callStore steadyBrowser emptyTab (.write (titledData longTitle))).1)
    ∧ (callStore steadyBrowser (callStore steadyBrowser emptyTab failedUpdate).2 .read).1
      ≠ (callStore steadyBrowser emptyTab failedUpdate).1 := by
  have hvalid := isDemoState_iff.mpr longTitle_checks
  have hlength : (steadyBrowser.stamp emptyTab.readings).length = 24 := by
    decide +kernel
  constructor
  · exact ⟨hvalid, write_overgrown (b := steadyBrowser) (w := emptyTab)
      (titledData longTitle) DEMO_SCENARIO_valid emptyTab_created.inv hvalid
      (titledState_unfit hlength longTitle_full) (fun _ => rfl) rfl⟩
  · exact (drifts_differs (b := steadyBrowser) DEMO_SCENARIO_valid emptyTab_created.inv
      failedUpdate_drifts).2

end Mosaic.Web
