/-
What reaches the storage.

Every state the store writes is a projection (`toPersistedState`), whatever
it was given: a caller's state, a mutator's result or an old snapshot. So a
stored state has the properties of the schema and no others, down to the
messages and errors, and no property in the details of an error has a
sensitive name at any depth. This needs neither a valid scenario nor a state
within the bounds.
-/
import Mosaic.Web.Proofs.Session

namespace Mosaic.Web

open Lib Js

variable {N : Numerals} {b : Browser N} {w : DemoWorld N} {v : Js N.Double}

-- ================================================================== clean

/-- No property has a sensitive name, at any depth. -/
inductive Clean : Js N.Double → Prop
  | undefined : Clean .undefined
  | null : Clean .null
  | bool (x : Bool) : Clean (.bool x)
  | number (d : N.Double) : Clean (.number d)
  | string (x : JsStr) : Clean (.string x)
  | array {items : List (Js N.Double)} (h : ∀ x ∈ items, Clean x) : Clean (.array items)
  | record {fields : List (JsStr × Js N.Double)}
      (hkeys : ∀ f ∈ fields, isSensitiveKey f.1 = false) (h : ∀ f ∈ fields, Clean f.2) :
      Clean (.record fields)

theorem clean_sanitizeJson (v : Js N.Double) : Clean (sanitizeJson v) := by
  induction v with
  | undefined => exact .undefined
  | null => exact .null
  | bool x => exact .bool x
  | number d => exact .number d
  | string x => exact .string x
  | array items ih =>
      rw [sanitizeJson, sanitizeItems_eq]
      apply Clean.array
      intro x hx
      obtain ⟨y, hy, rfl⟩ := List.mem_map.mp hx
      exact ih y hy
  | record fields ih =>
      rw [sanitizeJson, sanitizeFields_eq]
      apply Clean.record
      · intro f hf
        obtain ⟨g, hg, rfl⟩ := List.mem_map.mp hf
        have hkept := (List.mem_filter.mp hg).2
        simp only [droppedKey, Bool.not_or, Bool.and_eq_true, Bool.not_eq_true'] at hkept
        exact hkept.1
      · intro f hf
        obtain ⟨g, hg, rfl⟩ := List.mem_map.mp hf
        exact ih g (List.mem_of_mem_filter hg)

theorem clean_sanitizeDetails (v : Js N.Double) : Clean (sanitizeDetails v) := by
  unfold sanitizeDetails
  by_cases h : (sanitizeJson v).isRecord = true
  · rw [if_pos h]
    exact clean_sanitizeJson v
  · rw [if_neg h]
    exact .record (by simp) (by simp)

-- ================================================================= schema

/-- Only the named properties. -/
def Only (names : List String) (v : Js N.Double) : Prop :=
  ∀ e ∈ v.entries, e.1 ∈ names.map js

/-- The properties of a stored state, at every level. -/
structure Schema (s : Js N.Double) : Prop where
  state : Only ["schemaVersion", "seed", "authenticated", "passwordChangeRequired",
    "favorites", "selectedModelId", "conversations", "chatRequests", "conversationCreates",
    "drafts", "updatedAt"] s
  conversations : ∀ e ∈ (s.get (js "conversations")).entries,
    Only ["conversation_id", "product_model_id", "title", "messages", "updated_at",
        "active_request_id", "active_request_cursor"] e.2
      ∧ ∀ m ∈ (e.2.get (js "messages")).elements,
        Only ["message_id", "role", "content", "status", "created_at", "request_id"] m
  requests : ∀ e ∈ (s.get (js "chatRequests")).entries,
    Only ["request_id", "conversation_id", "message_id", "status", "next_chunk_index",
        "turn_index", "operation", "client_request_id", "payload_fingerprint", "prompt",
        "script_id", "error"] e.2
      ∧ Only ["code", "message", "request_id", "retryable", "details"] (e.2.get (js "error"))
      ∧ Clean ((e.2.get (js "error")).get (js "details"))
  creates : ∀ e ∈ (s.get (js "conversationCreates")).entries,
    Only ["client_request_id", "product_model_id", "conversation_id", "payload_fingerprint"]
      e.2

theorem mem_fromEntries {fields : List (JsStr × Js N.Double)} {e : JsStr × Js N.Double}
    (h : e ∈ (fromEntries fields).entries) : e ∈ fields := by
  have hfold : ∀ (rest acc : List (JsStr × Js N.Double)),
      e ∈ rest.foldl (fun fields e => assign fields e.1 e.2) acc → e ∈ acc ∨ e ∈ rest := by
    intro rest
    induction rest with
    | nil => exact fun acc hacc => Or.inl hacc
    | cons f rest ih =>
        intro acc hacc
        rcases ih _ hacc with hassign | hrest
        · rcases mem_assign hassign with hold | hnew
          · exact Or.inl hold
          · rw [hnew]
            exact Or.inr List.mem_cons_self
        · exact Or.inr (List.mem_cons_of_mem f hrest)
  rcases hfold fields [] h with hnil | hmem
  · cases hnil
  · exact hmem

/-- The values of a changed record are changed values. -/
theorem mem_mapEntries {f : Js N.Double → Js N.Double} {e : JsStr × Js N.Double}
    (h : e ∈ (mapEntries f v).entries) : ∃ x, e.2 = f x := by
  obtain ⟨e', -, rfl⟩ := List.mem_map.mp (mem_fromEntries h)
  exact ⟨e'.2, rfl⟩

theorem mem_keepDefined {key : String} {e : JsStr × Js N.Double} (h : e ∈ keepDefined v key) :
    e.1 = js key := by
  have hmem := (optional_keys (js key) (v.get (js key))).subset (List.mem_map.mpr ⟨e, h, rfl⟩)
  exact List.mem_singleton.mp hmem

theorem only_message (m : Js N.Double) :
    Only ["message_id", "role", "content", "status", "created_at", "request_id"]
      (persistedMessage m) := by
  intro e he
  rcases List.mem_append.mp he with he | he
  · simp only [keep, List.mem_cons, List.not_mem_nil, or_false] at he
    rcases he with rfl | rfl | rfl | rfl | rfl <;> simp
  · rw [mem_keepDefined he]
    simp

theorem only_conversation (c : Js N.Double) :
    Only ["conversation_id", "product_model_id", "title", "messages", "updated_at",
      "active_request_id", "active_request_cursor"] (persistedConversation c) := by
  intro e he
  simp only [persistedConversation, entries, keep, List.mem_cons, List.not_mem_nil,
    or_false] at he
  rcases he with rfl | rfl | rfl | rfl | rfl | rfl | rfl <;> simp

theorem only_create (c : Js N.Double) :
    Only ["client_request_id", "product_model_id", "conversation_id", "payload_fingerprint"]
      (persistedConversationCreate c) := by
  intro e he
  simp only [persistedConversationCreate, entries, keep, List.mem_cons, List.not_mem_nil,
    or_false] at he
  rcases he with rfl | rfl | rfl | rfl <;> simp

theorem only_error (x : Js N.Double) :
    Only ["code", "message", "request_id", "retryable", "details"] (persistedError x) := by
  intro e he
  rcases List.mem_append.mp he with he | he
  · simp only [keep, List.mem_cons, List.not_mem_nil, or_false] at he
    rcases he with rfl | rfl | rfl | rfl <;> simp
  · by_cases hu : (x.get (js "details")).isUndefined = true
    · rw [if_pos hu] at he
      cases he
    · rw [if_neg hu] at he
      rw [List.mem_singleton.mp he]
      simp

theorem only_chatRequest (r : Js N.Double) :
    Only ["request_id", "conversation_id", "message_id", "status", "next_chunk_index",
      "turn_index", "operation", "client_request_id", "payload_fingerprint", "prompt",
      "script_id", "error"] (persistedChatRequest r) := by
  intro e he
  simp only [persistedChatRequest, entries, List.mem_append, keep, List.mem_cons,
    List.not_mem_nil, or_false] at he
  rcases he with ((((((rfl | rfl | rfl | rfl | rfl | rfl) | he) | he) | he) | he) | he) | he
  iterate 6 simp
  iterate 5
    rw [mem_keepDefined he]
    simp
  by_cases hu : (r.get (js "error")).isUndefined = true
  · rw [if_pos hu] at he
    cases he
  · rw [if_neg hu] at he
    rw [List.mem_singleton.mp he]
    simp

theorem clean_error (x : Js N.Double) : Clean ((persistedError x).get (js "details")) := by
  rw [get_persistedError_details]
  by_cases hu : (x.get (js "details")).isUndefined = true
  · rw [if_pos hu]
    exact .undefined
  · rw [if_neg hu]
    by_cases hn : (x.get (js "details")).isNull = true
    · rw [if_pos hn]
      exact .null
    · rw [if_neg hn]
      exact clean_sanitizeDetails _

theorem get_toPersistedState (v : Js N.Double) :
    (toPersistedState v).get (js "conversations")
        = mapEntries persistedConversation (v.get (js "conversations"))
      ∧ (toPersistedState v).get (js "chatRequests")
        = mapEntries persistedChatRequest (v.get (js "chatRequests"))
      ∧ (toPersistedState v).get (js "conversationCreates")
        = persistedCreates (v.get (js "conversationCreates")) := by
  unfold toPersistedState persistedCreates
  by_cases hu : (v.get (js "conversationCreates")).isUndefined = true
  · simp [hu, keep, field_cons]
  · simp [hu, keep, field_cons]

/-- A projection has the properties of the schema. -/
theorem schema_toPersistedState (v : Js N.Double) : Schema (toPersistedState v) := by
  obtain ⟨hconversations, hrequests, hcreates⟩ := get_toPersistedState v
  constructor
  · intro e he
    simp only [toPersistedState, entries, List.mem_append, keep, List.mem_cons,
      List.not_mem_nil, or_false] at he
    rcases he with ((rfl | rfl | rfl | rfl | rfl | rfl | rfl | rfl) | he) | rfl | rfl
    iterate 8 simp
    · by_cases hu : (v.get (js "conversationCreates")).isUndefined = true
      · rw [if_pos hu] at he
        cases he
      · rw [if_neg hu] at he
        rw [List.mem_singleton.mp he]
        simp
    · simp
    · simp
  · rw [hconversations]
    intro e he
    obtain ⟨c, hc⟩ := mem_mapEntries he
    rw [hc]
    refine ⟨only_conversation c, ?_⟩
    rw [get_persistedConversation_messages]
    intro m hm
    obtain ⟨m', -, rfl⟩ := List.mem_map.mp hm
    exact only_message m'
  · rw [hrequests]
    intro e he
    obtain ⟨r, hr⟩ := mem_mapEntries he
    rw [hr, get_persistedChatRequest_error]
    refine ⟨only_chatRequest r, ?_⟩
    by_cases hu : (r.get (js "error")).isUndefined = true
    · rw [if_pos hu]
      exact ⟨fun e he => absurd he List.not_mem_nil, .undefined⟩
    · rw [if_neg hu]
      exact ⟨only_error _, clean_error _⟩
  · rw [hcreates]
    intro e he
    unfold persistedCreates at he
    by_cases hu : (v.get (js "conversationCreates")).isUndefined = true
    · rw [if_pos hu] at he
      cases he
    · rw [if_neg hu] at he
      obtain ⟨c, hc⟩ := mem_mapEntries he
      rw [hc]
      exact only_create c

-- ================================================================= writes

/-- What is stored between two states of a session are projections. -/
def StoresProjections (w w' : DemoWorld N) : Prop :=
  ∀ s ∈ w'.stored, s ∈ w.stored ∨ ∃ v, s = toPersistedState v

theorem stores_of_eq {w' : DemoWorld N} (h : w'.stored = w.stored) : StoresProjections w w' := by
  intro s hs
  rw [h] at hs
  exact Or.inl hs

theorem StoresProjections.trans {w' w'' : DemoWorld N} (h : StoresProjections w w')
    (h' : StoresProjections w' w'') : StoresProjections w w'' := by
  intro s hs
  rcases h' s hs with hold | hnew
  · exact h s hold
  · exact Or.inr hnew

theorem setItem_stores (v : Js N.Double) (w : DemoWorld N) :
    StoresProjections w (setItem b (toPersistedState v) w).2 := by
  unfold setItem
  by_cases hthrows : b.throws w.calls = true
  · simp only [if_pos hthrows]
    exact stores_of_eq rfl
  · simp only [if_neg hthrows]
    intro s hs
    rcases List.mem_append.mp hs with hs | hs
    · exact Or.inl hs
    · exact Or.inr ⟨v, List.mem_singleton.mp hs⟩

theorem persist_stores (v : Js N.Double) (w : DemoWorld N) :
    StoresProjections w (persist b v w).2 :=
  setItem_stores v { w with fallbackState := some (toPersistedState v) }

theorem removeItem_stores (w : DemoWorld N) : (removeItem b w).2.stored = w.stored := by
  unfold removeItem
  by_cases hthrows : b.throws w.calls = true
  · simp only [if_pos hthrows]
  · simp only [if_neg hthrows]

theorem recoverInitial_stores (failed : Bool) (w : DemoWorld N) :
    (recoverInitial b failed w).2.stored = w.stored := by
  unfold recoverInitial
  cases failed with
  | false => rfl
  | true =>
      cases w.fallbackState with
      | none => rfl
      | some state => rfl

theorem readLegacy_stores (w : DemoWorld N) : StoresProjections w (readLegacy b w).2 := by
  unfold readLegacy
  rcases hitem : getItem b (·.legacy) w with ⟨found, w'⟩
  have hsame : w'.stored = w.stored := by
    have hsnd : (getItem b (·.legacy) w).2.stored = w.stored := rfl
    rw [hitem] at hsnd
    exact hsnd
  rcases found with _ | _ | raw
  · exact stores_of_eq ((recoverInitial_stores true w').trans hsame)
  · exact stores_of_eq hsame
  · cases hlegacy : legacyOf b raw with
    | none =>
        simp only [hlegacy]
        exact stores_of_eq ((recoverInitial_stores false w').trans hsame)
    | some parsed =>
        simp only [hlegacy]
        exact (stores_of_eq (show (initial b w').2.stored = w.stored from hsame)).trans
          (persist_stores _ _)

theorem read_stores (w : DemoWorld N) : StoresProjections w (read b w).2 := by
  unfold read
  cases w.served with
  | some state => exact stores_of_eq rfl
  | none =>
      unfold readStorage
      rcases hitem : getItem b (·.v2) w with ⟨found, w'⟩
      have hsame : w'.stored = w.stored := by
        have hsnd : (getItem b (·.v2) w).2.stored = w.stored := rfl
        rw [hitem] at hsnd
        exact hsnd
      rcases found with _ | _ | raw
      · exact stores_of_eq ((recoverInitial_stores true w').trans hsame)
      · exact (stores_of_eq hsame).trans (readLegacy_stores w')
      · cases hstate : stateOf b raw with
        | none =>
            simp only [hstate]
            exact stores_of_eq ((recoverInitial_stores false w').trans hsame)
        | some state =>
            simp only [hstate]
            exact stores_of_eq hsame

theorem writeBase_stores (v : Js N.Double) (w : DemoWorld N) :
    StoresProjections w (writeBase b v w).2 := by
  unfold writeBase
  by_cases hvalid : isDemoState b.scenario.modelIds v = true
  · rw [if_pos hvalid]
    exact stores_of_eq rfl
  · rw [if_neg hvalid]
    by_cases hlegacy : isLegacyDemoState v = true
    · rw [if_pos hlegacy]
      exact stores_of_eq rfl
    · rw [if_neg hlegacy]
      exact read_stores w

theorem storeStep_stores (w : DemoWorld N) (c : StoreCall N) :
    StoresProjections w (storeStep b w c) := by
  cases c with
  | read => exact read_stores w
  | write state =>
      have hbase : StoresProjections w (writeBase b state.value w).2 := writeBase_stores _ w
      exact hbase.trans (persist_stores _ (timestamp b (writeBase b state.value w).2).2)
  | update m =>
      show StoresProjections w (update b m w).2
      have hread := read_stores (b := b) w
      unfold update
      cases hcandidate : candidateOf b m (read b w).1 with
      | none =>
          simp only [hcandidate]
          exact hread
      | some candidate =>
          simp only [hcandidate]
          exact hread.trans (persist_stores _ (timestamp b (read b w).2).2)
  | reset =>
      have hremoved := removeItem_stores (b := b)
        { (initial b w).2 with fallbackState := some (toPersistedState (initial b w).1) }
      exact (stores_of_eq hremoved).trans (setItem_stores (initial b w).1 _)

/-- What is stored are projections. -/
def OnlyProjections (w : DemoWorld N) : Prop :=
  ∀ s ∈ w.stored, ∃ v, s = toPersistedState v

theorem OnlyProjections.step (h : OnlyProjections w) (c : StoreCall N) :
    OnlyProjections (storeStep b w c) := by
  intro s hs
  rcases storeStep_stores w c s hs with hold | hnew
  · exact h s hold
  · exact hnew

/-- Whatever a session is given and whatever its storage does, each state it
stores has the properties of the schema only, and its errors no sensitive
detail. -/
theorem stored_in_schema (h : Created w) (calls : List (StoreCall N)) :
    ∀ s ∈ (run (storeStep b) w calls).stored, Schema s := by
  have hnone : OnlyProjections w := by
    intro s hs
    rw [h.stored] at hs
    cases hs
  have hstored : OnlyProjections (run (storeStep b) w calls) :=
    run_invariant (fun w c hw => hw.step c) hnone calls
  intro s hs
  obtain ⟨v, rfl⟩ := hstored s hs
  exact schema_toPersistedState v

/-- The legacy snapshot of the sample tab is stored in the new schema. -/
theorem stored_in_schema_sample :
    ∀ s ∈ (run (storeStep sampleBrowser) sampleTab sampleCalls).stored, Schema s :=
  stored_in_schema (b := sampleBrowser) sampleTab_created sampleCalls

end Mosaic.Web
