/-
What is kept of a valid state is a valid state.

# Projection

`toPersistedState` keeps the properties the checks read, so every check
finds in the projection what it found in the state (`get_persisted…`). Only
the details of an error change: keys are dropped from them, and what is left
is still JSON.

# Settled states

A `Good` state is a valid one that is its own projection and is read back as
it is written. The projection of any valid state is good
(`good_toPersistedState`), also with another time stamp, as long as the size
stays within the bound (`Good.restamp`).
-/
import Mosaic.Lib.Projection
import Mosaic.Web.DemoState

namespace Mosaic.Web

open Lib Js

variable {N : Numerals} {models : List JsStr} {v w : Js N.Double}

-- ============================================================ sanitizing

theorem sanitizeItems_eq (items : List (Js N.Double)) :
    sanitizeItems items = items.map sanitizeJson := by
  induction items with
  | nil => rfl
  | cons v items ih => rw [sanitizeItems, ih, List.map_cons]

theorem sanitizeFields_eq (fields : List (JsStr × Js N.Double)) :
    sanitizeFields fields
      = (fields.filter fun f => !droppedKey f.1).map fun f => (f.1, sanitizeJson f.2) := by
  induction fields with
  | nil => rfl
  | cons f fields ih =>
      obtain ⟨k, v⟩ := f
      rw [sanitizeFields]
      split
      · next h => rw [ih, List.filter_cons_of_neg (by simp [h])]
      · next h => rw [ih, List.filter_cons_of_pos (by simp [h]), List.map_cons]

theorem isRecord_sanitizeJson (v : Js N.Double) : (sanitizeJson v).isRecord = v.isRecord := by
  cases v <;> rfl

theorem isUndefined_sanitizeJson (v : Js N.Double) :
    (sanitizeJson v).isUndefined = v.isUndefined := by
  cases v <;> rfl

/-- What is left of a JSON value is one. -/
theorem isJson_sanitizeJson (h : isJson N v = true) : isJson N (sanitizeJson v) = true := by
  induction v with
  | array items ih =>
      rw [sanitizeJson, sanitizeItems_eq, isJson_array]
      intro x hx
      obtain ⟨y, hy, rfl⟩ := List.mem_map.mp hx
      exact ih y hy (isJson_array.mp h y hy)
  | record fields ih =>
      rw [sanitizeJson, sanitizeFields_eq, isJson_record]
      intro f hf
      obtain ⟨g, hg, rfl⟩ := List.mem_map.mp hf
      have hmem := List.mem_of_mem_filter hg
      exact ih g hmem (isJson_record.mp h g hmem)
  | _ => exact h

theorem distinct_sanitizeJson (h : v.Distinct) : (sanitizeJson v).Distinct := by
  induction v with
  | array items ih =>
      cases h with
      | array h =>
        rw [sanitizeJson, sanitizeItems_eq]
        refine .array fun x hx => ?_
        obtain ⟨y, hy, rfl⟩ := List.mem_map.mp hx
        exact ih y hy (h y hy)
  | record fields ih =>
      cases h with
      | record hkeys h =>
        rw [sanitizeJson, sanitizeFields_eq]
        refine .record ?_ fun f hf => ?_
        · rw [List.map_map]
          exact hkeys.sublist (List.filter_sublist.map _)
        · obtain ⟨g, hg, rfl⟩ := List.mem_map.mp hf
          have hmem := List.mem_of_mem_filter hg
          exact ih g hmem (h g hmem)
  | _ => exact h

/-- Nothing is left to drop. -/
theorem sanitizeJson_idem (v : Js N.Double) : sanitizeJson (sanitizeJson v) = sanitizeJson v := by
  induction v with
  | array items ih =>
      simp only [sanitizeJson, sanitizeItems_eq, List.map_map]
      congr 1
      exact List.map_congr_left fun x hx => ih x hx
  | record fields ih =>
      simp only [sanitizeJson, sanitizeFields_eq, List.filter_map, List.map_map]
      congr 1
      rw [List.filter_filter]
      simp only [Function.comp_def, Bool.and_self]
      refine List.map_congr_left fun f hf => ?_
      rw [ih f (List.mem_of_mem_filter hf)]
  | _ => rfl

/-- Dropping a key makes nothing larger. -/
theorem bytes_sanitizeJson (v : Js N.Double) : bytes N (sanitizeJson v) ≤ bytes N v := by
  induction v with
  | array items ih =>
      rw [sanitizeJson, sanitizeItems_eq, bytes_array, bytes_array, List.map_map]
      refine Nat.add_le_add_left (max_le_max_left 1 (List.sum_le_sum fun x hx => ?_)) 1
      exact Nat.add_le_add_right (ih x hx) 1
  | record fields ih =>
      rw [sanitizeJson, sanitizeFields_eq, bytes_record, bytes_record]
      refine Nat.add_le_add_left (max_le_max_left 1 ?_) 1
      induction fields with
      | nil => exact Nat.le_refl 0
      | cons f fields ihf =>
          obtain ⟨k, x⟩ := f
          have hrest := ihf fun g hg => ih g (List.mem_cons_of_mem _ hg)
          rw [weight_cons]
          by_cases hk : droppedKey k = true
          · rw [List.filter_cons_of_neg (by simp [hk])]
            exact hrest.trans (Nat.le_add_left _ _)
          · rw [List.filter_cons_of_pos (by simp [hk]), List.map_cons, weight_cons]
            refine Nat.add_le_add (entryWeight_le (fun h => ?_) ?_) hrest
            · rw [isUndefined_sanitizeJson]
              exact h
            · exact ih (k, x) List.mem_cons_self
  | _ => exact Nat.le_refl _

-- ============================================================== messages

/-- A message keeps what is read of it. -/
theorem get_persistedMessage (m : Js N.Double) (key : String)
    (h : key ∈ ["message_id", "role", "content", "status", "created_at", "request_id"]) :
    (persistedMessage m).get (js key) = m.get (js key) := by
  simp only [List.mem_cons, List.not_mem_nil, or_false] at h
  obtain rfl | rfl | rfl | rfl | rfl | rfl := h
  all_goals simp [persistedMessage, keep, keepDefined, field_optional, field_cons]

theorem get_persistedConversation (c : Js N.Double) (key : String)
    (h : key ∈ ["conversation_id", "product_model_id", "title", "updated_at",
      "active_request_id", "active_request_cursor"]) :
    (persistedConversation c).get (js key) = c.get (js key) := by
  simp only [List.mem_cons, List.not_mem_nil, or_false] at h
  obtain rfl | rfl | rfl | rfl | rfl | rfl := h
  all_goals simp [persistedConversation, keep, field_cons]

theorem get_persistedConversation_messages (c : Js N.Double) :
    (persistedConversation c).get (js "messages")
      = .array ((c.get (js "messages")).elements.map persistedMessage) := by
  simp [persistedConversation, keep, field_cons]

theorem get_persistedConversationCreate (c : Js N.Double) (key : String)
    (h : key ∈ ["client_request_id", "product_model_id", "conversation_id",
      "payload_fingerprint"]) :
    (persistedConversationCreate c).get (js key) = c.get (js key) := by
  simp only [List.mem_cons, List.not_mem_nil, or_false] at h
  obtain rfl | rfl | rfl | rfl := h
  all_goals simp [persistedConversationCreate, keep, field_cons]

theorem get_persistedError (e : Js N.Double) (key : String)
    (h : key ∈ ["code", "message", "request_id", "retryable"]) :
    (persistedError e).get (js key) = e.get (js key) := by
  simp only [List.mem_cons, List.not_mem_nil, or_false] at h
  obtain rfl | rfl | rfl | rfl := h
  all_goals simp [persistedError, keep, field_cons]

theorem get_persistedChatRequest (r : Js N.Double) (key : String)
    (h : key ∈ ["request_id", "conversation_id", "message_id", "status", "next_chunk_index",
      "turn_index", "operation", "client_request_id", "payload_fingerprint", "prompt",
      "script_id"]) :
    (persistedChatRequest r).get (js key) = r.get (js key) := by
  simp only [List.mem_cons, List.not_mem_nil, or_false] at h
  obtain rfl | rfl | rfl | rfl | rfl | rfl | rfl | rfl | rfl | rfl | rfl := h
  all_goals
    simp [persistedChatRequest, keep, keepDefined, field_optional_append, field_ite,
      field_cons]

theorem get_persistedChatRequest_error (r : Js N.Double) :
    (persistedChatRequest r).get (js "error")
      = if (r.get (js "error")).isUndefined = true then .undefined
        else persistedError (r.get (js "error")) := by
  simp [persistedChatRequest, keep, keepDefined, field_optional_append, field_ite, field_cons]

theorem get_persistedError_details (e : Js N.Double) :
    (persistedError e).get (js "details")
      = if (e.get (js "details")).isUndefined = true then .undefined
        else if (e.get (js "details")).isNull = true then .null
        else sanitizeDetails (e.get (js "details")) := by
  simp [persistedError, keep, field_ite, field_cons]

-- ================================================================= checks

theorem isErrorBody_persisted (h : isErrorBody v = true) : isErrorBody (persistedError v) = true := by
  simp (disch := simp) only [isErrorBody, get_persistedError, get_persistedError_details,
    Bool.and_eq_true, and_assoc] at h ⊢
  obtain ⟨-, hcode, hmessage, hrequest, hretryable, hdetails⟩ := h
  refine ⟨rfl, hcode, hmessage, hrequest, hretryable, ?_⟩
  by_cases hu : (v.get (js "details")).isUndefined = true
  · simp [hu]
  · by_cases hn : (v.get (js "details")).isNull = true
    · simp [hu, hn]
    · simp only [Bool.or_eq_true, hu, hn, false_or, or_false, Bool.false_eq_true,
        Bool.and_eq_true] at hdetails
      have hrecord : (sanitizeJson (v.get (js "details"))).isRecord = true := by
        rw [isRecord_sanitizeJson]
        exact hdetails.1
      simp [hu, hn, sanitizeDetails, hrecord, isJson_sanitizeJson hdetails.2]

theorem isConversationMessage_persisted (h : isConversationMessage v = true) :
    isConversationMessage (persistedMessage v) = true := by
  simp (disch := simp) only [isConversationMessage, get_persistedMessage, Bool.and_eq_true,
    and_assoc] at h ⊢
  exact ⟨rfl, h.2⟩

theorem isConversation_persisted (h : isConversation v = true) :
    isConversation (persistedConversation v) = true := by
  simp (disch := simp) only [isConversation, get_persistedConversation,
    get_persistedConversation_messages, Bool.and_eq_true, and_assoc] at h ⊢
  obtain ⟨-, hid, hmodel, htitle, -, hmessages, hrest⟩ := h
  refine ⟨rfl, hid, hmodel, htitle, rfl, ?_, hrest⟩
  rw [elements, List.all_eq_true]
  intro m hm
  obtain ⟨m', hm', rfl⟩ := List.mem_map.mp hm
  exact isConversationMessage_persisted (List.all_eq_true.mp hmessages m' hm')

theorem isConversationCreate_persisted (h : isConversationCreate v = true) :
    isConversationCreate (persistedConversationCreate v) = true := by
  simp (disch := simp) only [isConversationCreate, get_persistedConversationCreate,
    Bool.and_eq_true, and_assoc] at h ⊢
  exact ⟨rfl, h.2⟩

theorem isChatRequest_persisted (h : isChatRequest v = true) :
    isChatRequest (persistedChatRequest v) = true := by
  simp (disch := simp) only [isChatRequest, get_persistedChatRequest,
    get_persistedChatRequest_error, Bool.and_eq_true, and_assoc] at h ⊢
  obtain ⟨-, hid, hconversation, hmessage, hstatus, hchunk, hturn, hoperation, hclient,
    hfingerprint, hprompt, hscript, herror⟩ := h
  refine ⟨rfl, hid, hconversation, hmessage, hstatus, hchunk, hturn, hoperation, hclient,
    hfingerprint, hprompt, hscript, ?_⟩
  by_cases hu : (v.get (js "error")).isUndefined = true
  · simp [hu]
  · simp only [Bool.or_eq_true, hu, Bool.false_eq_true, false_or] at herror
    simp [hu, isErrorBody_persisted herror]

-- ================================================================= parts

theorem isJson_of_text {p : JsStr → Bool} (h : v.str?.any p = true) : isJson N v = true := by
  cases v with
  | string s => rfl
  | _ => cases h

theorem isJson_of_string (h : v.isString = true) : isJson N v = true := by
  cases v with
  | string s => rfl
  | _ => cases h

theorem isJson_of_isText {s : JsStr} (h : isText v s = true) : isJson N v = true := by
  cases v with
  | string s => rfl
  | _ => cases h

theorem isJson_of_bool (h : v.isBool = true) : isJson N v = true := by
  cases v with
  | bool b => rfl
  | _ => cases h

theorem isJson_of_null (h : v.isNull = true) : isJson N v = true := by
  cases v with
  | null => rfl
  | _ => cases h

theorem isJson_of_integer {p : Int → Bool} (h : (integer? v).any p = true) :
    isJson N v = true := by
  cases v with
  | number d =>
      obtain ⟨n, hn, -⟩ := (Option.any_eq_true _ _).mp h
      exact N.integer_finite hn
  | _ => cases h

/-- An optional property is absent or there. -/
theorem isJson_of_optional {b : Bool} (h : (v.isUndefined || b) = true)
    (hb : b = true → isJson N v = true) (hdefined : v.isUndefined = false) :
    isJson N v = true := by
  rw [hdefined, Bool.false_or] at h
  exact hb h

/-- An integer the code spells out. -/
theorem eq_of_isInt {n : Int} (hn : n.natAbs < 2 ^ 53) (h : isInt v n = true) :
    v = .number (N.ofInt n) := by
  cases v with
  | number d =>
      have hd : N.integer d = some n := by
        simpa [isInt, integer?] using h
      rw [N.integer_inj hd (N.integer_ofInt hn)]
  | _ => cases h

theorem optional_of_defined (k : JsStr) (h : v.isUndefined = false) : Js.optional k v = [(k, v)] := by
  rw [Js.optional, h]
  rfl

theorem defined_of_json (h : isJson N v = true) : v.isUndefined = false := defined_of_isJson h

-- =============================================================== messages

def messageKeys : List (JsStr × (Js N.Double → Js N.Double)) :=
  ["message_id", "role", "content", "status", "created_at", "request_id"].map
    fun key => (js key, id)

/-- What `isConversationMessage` says of the properties that are kept. -/
theorem message_json (h : isConversationMessage v = true) :
    v.isRecord = true ∧ isJson N (v.get (js "message_id")) = true
      ∧ isJson N (v.get (js "role")) = true ∧ isJson N (v.get (js "content")) = true
      ∧ isJson N (v.get (js "status")) = true ∧ isJson N (v.get (js "created_at")) = true
      ∧ ((v.get (js "request_id")).isUndefined = false →
        isJson N (v.get (js "request_id")) = true) := by
  simp only [isConversationMessage, Bool.and_eq_true, and_assoc] at h
  obtain ⟨hrecord, hid, hrole, hcontent, hstatus, hcreated, hrequest⟩ := h
  refine ⟨hrecord, isJson_of_text hid, ?_, isJson_of_string hcontent, isJson_of_text hstatus,
    isJson_of_text hcreated, isJson_of_optional hrequest isJson_of_text⟩
  rcases Bool.or_eq_true_iff.mp hrole with hrole | hrole
  · exact isJson_of_isText hrole
  · exact isJson_of_isText hrole

theorem persistedMessage_eq (h : isConversationMessage v = true) :
    persistedMessage v = project messageKeys v := by
  obtain ⟨-, h₁, h₂, h₃, h₄, h₅, -⟩ := message_json h
  simp [persistedMessage, project, messageKeys, keep, keepDefined, optional_of_defined,
    defined_of_isJson h₁, defined_of_isJson h₂, defined_of_isJson h₃, defined_of_isJson h₄,
    defined_of_isJson h₅]

theorem keeps_message (h : isConversationMessage v = true) : Keeps N persistedMessage v := by
  obtain ⟨hrecord, h₁, h₂, h₃, h₄, h₅, h₆⟩ := message_json h
  have hkeeps : Keeps N (project messageKeys) v := by
    apply Keeps.project (by simp [messageKeys]) hrecord
    intro k hk
    simp only [messageKeys, List.map_cons, List.map_nil, List.mem_cons, List.not_mem_nil,
      or_false] at hk
    rcases hk with rfl | rfl | rfl | rfl | rfl | rfl
    · exact keeps_id fun _ => h₁
    · exact keeps_id fun _ => h₂
    · exact keeps_id fun _ => h₃
    · exact keeps_id fun _ => h₄
    · exact keeps_id fun _ => h₅
    · exact keeps_id h₆
  apply hkeeps.congr (persistedMessage_eq h)
  rw [← persistedMessage_eq h, persistedMessage_eq (isConversationMessage_persisted h)]

-- ========================================================== conversations

def persistedMessages (messages : Js N.Double) : Js N.Double :=
  .array (messages.elements.map persistedMessage)

def conversationKeys : List (JsStr × (Js N.Double → Js N.Double)) :=
  [(js "conversation_id", id), (js "product_model_id", id), (js "title", id),
    (js "messages", persistedMessages), (js "updated_at", id), (js "active_request_id", id),
    (js "active_request_cursor", id)]

theorem conversation_json (h : isConversation v = true) :
    v.isRecord = true ∧ isJson N (v.get (js "conversation_id")) = true
      ∧ isJson N (v.get (js "product_model_id")) = true
      ∧ isJson N (v.get (js "title")) = true ∧ (v.get (js "messages")).isArray = true
      ∧ (∀ m ∈ (v.get (js "messages")).elements, isConversationMessage m = true)
      ∧ isJson N (v.get (js "updated_at")) = true
      ∧ isJson N (v.get (js "active_request_id")) = true
      ∧ isJson N (v.get (js "active_request_cursor")) = true := by
  simp only [isConversation, Bool.and_eq_true, and_assoc] at h
  obtain ⟨hrecord, hid, hmodel, htitle, harray, hmessages, hupdated, hactive, hcursor, -⟩ := h
  refine ⟨hrecord, isJson_of_text hid, isJson_of_text hmodel, isJson_of_text htitle, harray,
    List.all_eq_true.mp hmessages, isJson_of_text hupdated, ?_, ?_⟩
  · rcases Bool.or_eq_true_iff.mp hactive with hactive | hactive
    · exact isJson_of_null hactive
    · exact isJson_of_text hactive
  · rcases Bool.or_eq_true_iff.mp hcursor with hcursor | hcursor
    · exact isJson_of_null hcursor
    · exact isJson_of_integer hcursor

theorem persistedConversation_eq (h : isConversation v = true) :
    persistedConversation v = project conversationKeys v := by
  obtain ⟨-, h₁, h₂, h₃, -, -, h₅, h₆, h₇⟩ := conversation_json h
  have hmessages := optional_of_defined (js "messages")
    (isUndefined_array ((v.get (js "messages")).elements.map persistedMessage))
  simp [hmessages, persistedConversation, project, conversationKeys, keep, persistedMessages,
    optional_of_defined, defined_of_isJson h₁, defined_of_isJson h₂,
    defined_of_isJson h₃, defined_of_isJson h₅, defined_of_isJson h₆, defined_of_isJson h₇]

theorem keeps_conversation (h : isConversation v = true) :
    Keeps N persistedConversation v := by
  obtain ⟨hrecord, h₁, h₂, h₃, harray, hmessages, h₅, h₆, h₇⟩ := conversation_json h
  have hitems : Keeps N persistedMessages (v.get (js "messages")) := by
    apply Keeps.items harray
    intro m hm
    have hrecord := (message_json (hmessages m hm)).1
    refine ⟨keeps_message (hmessages m hm), ?_⟩
    cases m with
    | record fields => rfl
    | _ => cases hrecord
  have hkeeps : Keeps N (project conversationKeys) v := by
    apply Keeps.project (by simp [conversationKeys]) hrecord
    intro k hk
    simp only [conversationKeys, List.mem_cons, List.not_mem_nil, or_false] at hk
    rcases hk with rfl | rfl | rfl | rfl | rfl | rfl | rfl
    · exact keeps_id fun _ => h₁
    · exact keeps_id fun _ => h₂
    · exact keeps_id fun _ => h₃
    · exact hitems
    · exact keeps_id fun _ => h₅
    · exact keeps_id fun _ => h₆
    · exact keeps_id fun _ => h₇
  apply hkeeps.congr (persistedConversation_eq h)
  rw [← persistedConversation_eq h, persistedConversation_eq (isConversation_persisted h)]

-- ================================================================ creates

def createKeys : List (JsStr × (Js N.Double → Js N.Double)) :=
  ["client_request_id", "product_model_id", "conversation_id", "payload_fingerprint"].map
    fun key => (js key, id)

theorem create_json (h : isConversationCreate v = true) :
    v.isRecord = true ∧ isJson N (v.get (js "client_request_id")) = true
      ∧ isJson N (v.get (js "product_model_id")) = true
      ∧ isJson N (v.get (js "conversation_id")) = true
      ∧ isJson N (v.get (js "payload_fingerprint")) = true := by
  simp only [isConversationCreate, Bool.and_eq_true, and_assoc] at h
  obtain ⟨hrecord, hclient, hmodel, hid, hfingerprint⟩ := h
  exact ⟨hrecord, isJson_of_text hclient, isJson_of_text hmodel, isJson_of_text hid,
    isJson_of_text hfingerprint⟩

theorem persistedConversationCreate_eq (h : isConversationCreate v = true) :
    persistedConversationCreate v = project createKeys v := by
  obtain ⟨-, h₁, h₂, h₃, h₄⟩ := create_json h
  simp [persistedConversationCreate, project, createKeys, keep, optional_of_defined,
    defined_of_isJson h₁, defined_of_isJson h₂, defined_of_isJson h₃, defined_of_isJson h₄]

theorem keeps_create (h : isConversationCreate v = true) :
    Keeps N persistedConversationCreate v := by
  obtain ⟨hrecord, h₁, h₂, h₃, h₄⟩ := create_json h
  have hkeeps : Keeps N (project createKeys) v := by
    apply Keeps.project (by simp [createKeys]) hrecord
    intro k hk
    simp only [createKeys, List.map_cons, List.map_nil, List.mem_cons, List.not_mem_nil,
      or_false] at hk
    rcases hk with rfl | rfl | rfl | rfl
    · exact keeps_id fun _ => h₁
    · exact keeps_id fun _ => h₂
    · exact keeps_id fun _ => h₃
    · exact keeps_id fun _ => h₄
  apply hkeeps.congr (persistedConversationCreate_eq h)
  rw [← persistedConversationCreate_eq h,
    persistedConversationCreate_eq (isConversationCreate_persisted h)]

-- =============================================================== requests

/-- The details of an error as they are kept. -/
def persistedDetails (details : Js N.Double) : Js N.Double :=
  if details.isUndefined = true then .undefined
  else if details.isNull = true then .null
  else sanitizeDetails details

def errorKeys : List (JsStr × (Js N.Double → Js N.Double)) :=
  [(js "code", id), (js "message", id), (js "request_id", id), (js "retryable", id),
    (js "details", persistedDetails)]

/-- The error of a request as it is kept. -/
def persistedErrorField (error : Js N.Double) : Js N.Double :=
  if error.isUndefined = true then .undefined else persistedError error

def chatRequestKeys : List (JsStr × (Js N.Double → Js N.Double)) :=
  ["request_id", "conversation_id", "message_id", "status", "next_chunk_index", "turn_index",
      "operation", "client_request_id", "payload_fingerprint", "prompt", "script_id"].map
    (fun key => (js key, id)) ++ [(js "error", persistedErrorField)]

theorem sanitizeDetails_eq (h : v.isRecord = true) : sanitizeDetails v = sanitizeJson v := by
  rw [sanitizeDetails, isRecord_sanitizeJson, if_pos h]

/-- Details are absent, null or a record of JSON. -/
theorem keeps_details (h : (v.isUndefined || v.isNull || (v.isRecord && isJson N v)) = true) :
    Keeps N persistedDetails v := by
  by_cases hu : v.isUndefined = true
  · rw [eq_undefined hu]
    exact ⟨rfl, le_refl _, id, (by rintro ⟨⟩), rfl⟩
  · by_cases hn : v.isNull = true
    · cases v with
      | null => exact ⟨rfl, le_refl _, id, fun _ => rfl, rfl⟩
      | _ => cases hn
    · simp only [Bool.or_eq_true, hu, hn, false_or, Bool.false_eq_true, Bool.and_eq_true] at h
      obtain ⟨hrecord, hjson⟩ := h
      have hvalue : persistedDetails v = sanitizeJson v := by
        rw [persistedDetails, if_neg hu, if_neg hn, sanitizeDetails_eq hrecord]
      have hagain : persistedDetails (sanitizeJson v) = sanitizeJson (sanitizeJson v) := by
        have hrecord' : (sanitizeJson v).isRecord = true := by
          rw [isRecord_sanitizeJson]
          exact hrecord
        have hnull : ¬ (sanitizeJson v).isNull = true := by
          cases hs : sanitizeJson v with
          | null =>
              rw [hs] at hrecord'
              cases hrecord'
          | _ => exact Bool.false_ne_true
        rw [persistedDetails, isUndefined_sanitizeJson, if_neg hu, if_neg hnull,
          sanitizeDetails_eq hrecord']
      have hkeeps : Keeps N sanitizeJson v :=
        ⟨isUndefined_sanitizeJson v, bytes_sanitizeJson v, distinct_sanitizeJson,
          fun _ => isJson_sanitizeJson hjson, sanitizeJson_idem v⟩
      exact hkeeps.congr hvalue hagain

theorem error_json (h : isErrorBody v = true) :
    v.isRecord = true ∧ isJson N (v.get (js "code")) = true
      ∧ isJson N (v.get (js "message")) = true ∧ isJson N (v.get (js "request_id")) = true
      ∧ isJson N (v.get (js "retryable")) = true
      ∧ Keeps N persistedDetails (v.get (js "details")) := by
  simp only [isErrorBody, Bool.and_eq_true, and_assoc] at h
  obtain ⟨hrecord, hcode, hmessage, hrequest, hretryable, hdetails⟩ := h
  refine ⟨hrecord, isJson_of_text hcode, isJson_of_text hmessage, isJson_of_text hrequest,
    isJson_of_bool hretryable, keeps_details ?_⟩
  simpa using hdetails

theorem persistedError_eq (h : isErrorBody v = true) :
    persistedError v = project errorKeys v := by
  obtain ⟨-, h₁, h₂, h₃, h₄, -⟩ := error_json h
  have hdetails : (if (v.get (js "details")).isUndefined = true then []
      else [(js "details", if (v.get (js "details")).isNull = true then Js.null
          else sanitizeDetails (v.get (js "details")))])
      = Js.optional (js "details") (persistedDetails (v.get (js "details"))) := by
    unfold persistedDetails
    by_cases hu : (v.get (js "details")).isUndefined = true
    · rw [if_pos hu, if_pos hu]
      rfl
    · rw [if_neg hu, if_neg hu, optional_of_defined]
      by_cases hn : (v.get (js "details")).isNull = true
      · rw [if_pos hn]
        rfl
      · rw [if_neg hn, sanitizeDetails]
        by_cases hr : (sanitizeJson (v.get (js "details"))).isRecord = true
        · rw [if_pos hr, isUndefined_sanitizeJson]
          exact Bool.eq_false_iff.mpr hu
        · rw [if_neg hr]
          rfl
  rw [persistedError, hdetails]
  simp [project, errorKeys, keep, optional_of_defined, defined_of_isJson h₁,
    defined_of_isJson h₂, defined_of_isJson h₃, defined_of_isJson h₄]

theorem keeps_error (h : isErrorBody v = true) : Keeps N persistedError v := by
  obtain ⟨hrecord, h₁, h₂, h₃, h₄, hdetails⟩ := error_json h
  have hkeeps : Keeps N (project errorKeys) v := by
    apply Keeps.project (by simp [errorKeys]) hrecord
    intro k hk
    simp only [errorKeys, List.mem_cons, List.not_mem_nil, or_false] at hk
    rcases hk with rfl | rfl | rfl | rfl | rfl
    · exact keeps_id fun _ => h₁
    · exact keeps_id fun _ => h₂
    · exact keeps_id fun _ => h₃
    · exact keeps_id fun _ => h₄
    · exact hdetails
  apply hkeeps.congr (persistedError_eq h)
  rw [← persistedError_eq h, persistedError_eq (isErrorBody_persisted h)]

theorem keeps_errorField (h : (v.isUndefined || isErrorBody v) = true) :
    Keeps N persistedErrorField v := by
  by_cases hu : v.isUndefined = true
  · rw [eq_undefined hu]
    exact ⟨rfl, le_refl _, id, (by rintro ⟨⟩), rfl⟩
  · have herror : isErrorBody v = true := by
      simpa [hu] using h
    apply (keeps_error herror).congr
    · rw [persistedErrorField, if_neg hu]
    · rw [persistedErrorField, if_neg]
      exact Bool.false_ne_true

theorem chatRequest_json (h : isChatRequest v = true) :
    v.isRecord = true
      ∧ (∀ key ∈ ["request_id", "conversation_id", "message_id", "status", "next_chunk_index",
        "turn_index"], isJson N (v.get (js key)) = true)
      ∧ (∀ key ∈ ["operation", "client_request_id", "payload_fingerprint", "prompt",
        "script_id"], (v.get (js key)).isUndefined = false →
          isJson N (v.get (js key)) = true)
      ∧ Keeps N persistedErrorField (v.get (js "error")) := by
  simp only [isChatRequest, Bool.and_eq_true, and_assoc] at h
  obtain ⟨hrecord, hid, hconversation, hmessage, hstatus, hchunk, hturn, hoperation, hclient,
    hfingerprint, hprompt, hscript, herror⟩ := h
  refine ⟨hrecord, ?_, ?_, keeps_errorField herror⟩
  · simp only [List.forall_mem_cons]
    exact ⟨isJson_of_text hid, isJson_of_text hconversation, isJson_of_text hmessage,
      isJson_of_text hstatus, isJson_of_integer hchunk, isJson_of_integer hturn,
      by simp⟩
  · simp only [List.forall_mem_cons]
    refine ⟨?_, isJson_of_optional hclient isJson_of_text,
      isJson_of_optional hfingerprint isJson_of_text,
      isJson_of_optional hprompt isJson_of_string, isJson_of_optional hscript isJson_of_text,
      by simp⟩
    rw [Bool.or_assoc, Bool.or_assoc] at hoperation
    apply isJson_of_optional hoperation
    intro hb
    simp only [Bool.or_eq_true] at hb
    rcases hb with hb | hb | hb
    · exact isJson_of_isText hb
    · exact isJson_of_isText hb
    · exact isJson_of_isText hb

theorem persistedChatRequest_eq (h : isChatRequest v = true) :
    persistedChatRequest v = project chatRequestKeys v := by
  obtain ⟨-, hkept, -, -⟩ := chatRequest_json h
  have hdefined : ∀ key ∈ ["request_id", "conversation_id", "message_id", "status",
      "next_chunk_index", "turn_index"], (v.get (js key)).isUndefined = false :=
    fun key hkey => defined_of_isJson (hkept key hkey)
  simp only [List.forall_mem_cons] at hdefined
  obtain ⟨h₁, h₂, h₃, h₄, h₅, h₆, -⟩ := hdefined
  have herror : (if (v.get (js "error")).isUndefined = true then []
      else [(js "error", persistedError (v.get (js "error")))])
      = Js.optional (js "error") (persistedErrorField (v.get (js "error"))) := by
    unfold persistedErrorField
    by_cases hu : (v.get (js "error")).isUndefined = true
    · rw [if_pos hu, if_pos hu]
      rfl
    · rw [if_neg hu, if_neg hu, optional_of_defined]
      rfl
  rw [persistedChatRequest, herror]
  simp [project, chatRequestKeys, keep, keepDefined, optional_of_defined, h₁, h₂, h₃, h₄, h₅,
    h₆]

theorem keeps_chatRequest (h : isChatRequest v = true) : Keeps N persistedChatRequest v := by
  obtain ⟨hrecord, hkept, hoptional, herror⟩ := chatRequest_json h
  have hkeeps : Keeps N (project chatRequestKeys) v := by
    apply Keeps.project (by simp [chatRequestKeys]) hrecord
    intro k hk
    rcases List.mem_append.mp hk with hk | hk
    · obtain ⟨key, hkey, rfl⟩ := List.mem_map.mp hk
      apply keeps_id
      rcases List.mem_append.mp (show key ∈ ["request_id", "conversation_id", "message_id",
        "status", "next_chunk_index", "turn_index"] ++ ["operation", "client_request_id",
        "payload_fingerprint", "prompt", "script_id"] from hkey) with hkey | hkey
      · exact fun _ => hkept key hkey
      · exact hoptional key hkey
    · rw [List.mem_singleton.mp hk]
      exact herror
  apply hkeeps.congr (persistedChatRequest_eq h)
  rw [← persistedChatRequest_eq h, persistedChatRequest_eq (isChatRequest_persisted h)]

-- =================================================================== maps

theorem mapEntries_eq (f : Js N.Double → Js N.Double) (h : v.Distinct) :
    mapEntries f v = .record (v.entries.map fun e => (e.1, f e.2)) := by
  apply fromEntries_eq
  rw [List.map_map]
  exact h.keys

theorem mapEntries_keys (f : Js N.Double → Js N.Double) (h : v.Distinct) :
    (mapEntries f v).entries.map (·.1) = v.entries.map (·.1) := by
  rw [mapEntries_eq f h, entries, List.map_map]
  rfl

theorem get_mapEntries (f : Js N.Double → Js N.Double) (h : v.Distinct) (k : JsStr) :
    (mapEntries f v).get k = if k ∈ v.entries.map (·.1) then f (v.get k) else .undefined := by
  rw [mapEntries_eq f h, get_record, field_map, get_eq_field]

-- ================================================================= checks

theorem checkConversations_cons {seen : List JsStr} {id : JsStr} {c : Js N.Double}
    {rest : List (JsStr × Js N.Double)} :
    checkConversations models seen ((id, c) :: rest) = true
      ↔ id ≠ [] ∧ isConversation c = true ∧ isText (c.get (js "conversation_id")) id = true
        ∧ isModelId models (c.get (js "product_model_id")) = true
        ∧ (c.get (js "messages")).elements.length ≤ MAX_DEMO_MESSAGES_PER_CONVERSATION
        ∧ ∃ seen', seeMessages seen (c.get (js "messages")).elements = some seen'
          ∧ checkConversations models seen' rest = true := by
  rw [checkConversations]
  by_cases hbad : id = [] ∨ isConversation c = false
      ∨ isText (c.get (js "conversation_id")) id = false
      ∨ isModelId models (c.get (js "product_model_id")) = false
      ∨ (c.get (js "messages")).elements.length > MAX_DEMO_MESSAGES_PER_CONVERSATION
  · rw [if_pos hbad]
    constructor
    · intro h
      cases h
    · rintro ⟨hid, hvalid, htext, hmodel, hlength, -⟩
      rcases hbad with h | h | h | h | h
      · exact absurd h hid
      · rw [h] at hvalid
        cases hvalid
      · rw [h] at htext
        cases htext
      · rw [h] at hmodel
        cases hmodel
      · omega
  · rw [if_neg hbad]
    simp only [not_or, Bool.not_eq_false, gt_iff_lt, Nat.not_lt] at hbad
    obtain ⟨hid, hvalid, htext, hmodel, hlength⟩ := hbad
    cases hseen : seeMessages seen (c.get (js "messages")).elements with
    | none => simp
    | some seen' => simp [hid, hvalid, htext, hmodel, hlength]

theorem seeMessages_persisted (seen : List JsStr) (messages : List (Js N.Double)) :
    seeMessages seen (messages.map persistedMessage) = seeMessages seen messages := by
  induction messages generalizing seen with
  | nil => rfl
  | cons m messages ih =>
      rw [List.map_cons, seeMessages, seeMessages, get_persistedMessage m "message_id" (by simp)]
      cases hid : (m.get (js "message_id")).str? with
      | none => rfl
      | some id =>
          by_cases hmem : id ∈ seen
          · simp only [if_pos hmem]
          · simp only [if_neg hmem]
            exact ih _

theorem checkConversations_persisted {seen : List JsStr} {rest : List (JsStr × Js N.Double)}
    (h : checkConversations models seen rest = true) :
    checkConversations models seen (rest.map fun e => (e.1, persistedConversation e.2))
      = true := by
  induction rest generalizing seen with
  | nil => rfl
  | cons e rest ih =>
      obtain ⟨id, c⟩ := e
      obtain ⟨hid, hvalid, htext, hmodel, hlength, seen', hseen, hrest⟩ :=
        checkConversations_cons.mp h
      rw [List.map_cons, checkConversations_cons]
      refine ⟨hid, isConversation_persisted hvalid, ?_, ?_, ?_, seen', ?_, ih hrest⟩
      · rw [get_persistedConversation c "conversation_id" (by simp)]
        exact htext
      · rw [get_persistedConversation c "product_model_id" (by simp)]
        exact hmodel
      · rw [get_persistedConversation_messages, elements, List.length_map]
        exact hlength
      · rw [get_persistedConversation_messages, elements, seeMessages_persisted]
        exact hseen

theorem isConversation_of_check {seen : List JsStr} {rest : List (JsStr × Js N.Double)}
    (h : checkConversations models seen rest = true) :
    ∀ e ∈ rest, isConversation e.2 = true := by
  induction rest generalizing seen with
  | nil => exact fun e he => absurd he List.not_mem_nil
  | cons e rest ih =>
      obtain ⟨id, c⟩ := e
      obtain ⟨-, hvalid, -, -, -, seen', -, hrest⟩ := checkConversations_cons.mp h
      exact List.forall_mem_cons.mpr ⟨hvalid, ih hrest⟩

theorem hasConversation_mapEntries (f : Js N.Double → Js N.Double) (h : v.Distinct)
    (x : Js N.Double) : hasConversation (mapEntries f v) x = hasConversation v x := by
  rw [hasConversation, hasConversation, mapEntries_keys f h]

theorem hasMessage_persisted (h : v.Distinct) (x y : Js N.Double) :
    hasMessage (mapEntries persistedConversation v) x y = hasMessage v x y := by
  unfold hasMessage
  cases x.str? with
  | none => rfl
  | some cid =>
      simp only [Option.any_some]
      rw [get_mapEntries _ h]
      by_cases hcid : cid ∈ v.entries.map (·.1)
      · rw [if_pos hcid, get_persistedConversation_messages, elements, List.any_map]
        refine congrArg (List.any _) (funext fun m => ?_)
        rw [Function.comp_apply, get_persistedMessage m "message_id" (by simp)]
      · rw [if_neg hcid, get_eq_field v, field_of_notMem hcid]

theorem checkRequest_persisted (h : v.Distinct) {e : JsStr × Js N.Double}
    (hcheck : checkRequest v e = true) :
    checkRequest (mapEntries persistedConversation v) (e.1, persistedChatRequest e.2)
      = true := by
  simp (disch := simp) only [checkRequest, get_persistedChatRequest,
    get_persistedChatRequest_error, hasConversation_mapEntries _ h, hasMessage_persisted h,
    Bool.and_eq_true, and_assoc] at hcheck ⊢
  obtain ⟨hid, hvalid, htext, hconversation, hmessage, herror⟩ := hcheck
  refine ⟨hid, isChatRequest_persisted hvalid, htext, hconversation, hmessage, ?_⟩
  by_cases hu : (e.2.get (js "error")).isUndefined = true
  · rw [if_pos hu]
    rfl
  · rw [if_neg hu, get_persistedError _ "request_id" (by simp)]
    rw [Bool.eq_false_iff.mpr hu, Bool.false_or] at herror
    rw [herror, Bool.or_true]

theorem checkCreate_persisted (f : Js N.Double → Js N.Double) (h : v.Distinct)
    {e : JsStr × Js N.Double} (hcheck : checkCreate models v e = true) :
    checkCreate models (mapEntries f v) (e.1, persistedConversationCreate e.2) = true := by
  simp (disch := simp) only [checkCreate, get_persistedConversationCreate,
    hasConversation_mapEntries _ h, Bool.and_eq_true, and_assoc] at hcheck ⊢
  exact ⟨hcheck.1, isConversationCreate_persisted hcheck.2.1, hcheck.2.2⟩

theorem checkActive_persisted (h : v.Distinct) {e : JsStr × Js N.Double}
    (hcheck : checkActive v e = true) :
    checkActive (mapEntries persistedChatRequest v) (e.1, persistedConversation e.2)
      = true := by
  simp only [checkActive] at hcheck ⊢
  rw [get_persistedConversation _ "active_request_id" (by simp),
    get_persistedConversation _ "active_request_cursor" (by simp)]
  cases hactive : (e.2.get (js "active_request_id")).str? with
  | none =>
      rw [hactive] at hcheck
      exact hcheck
  | some active =>
      rw [hactive] at hcheck
      simp only [Option.any_some, Bool.or_eq_true, Bool.and_eq_true, and_assoc,
        Bool.not_eq_true'] at hcheck ⊢
      refine hcheck.imp id ?_
      rintro ⟨hdefined, hconversation, hid, hcursor⟩
      have hmem : active ∈ v.entries.map (·.1) := by
        by_contra hno
        rw [get_eq_field, field_of_notMem hno] at hdefined
        cases hdefined
      rw [get_mapEntries _ h, if_pos hmem, cursorOf,
        get_persistedChatRequest _ "conversation_id" (by simp),
        get_persistedChatRequest _ "request_id" (by simp),
        get_persistedChatRequest _ "next_chunk_index" (by simp)]
      exact ⟨rfl, hconversation, hid, hcursor⟩

theorem checkDraft_mapEntries (f : Js N.Double → Js N.Double) (h : v.Distinct)
    (e : JsStr × Js N.Double) : checkDraft (mapEntries f v) e = checkDraft v e := by
  rw [checkDraft, checkDraft, mapEntries_keys f h]

-- ================================================================== state

def persistedCreates (creates : Js N.Double) : Js N.Double :=
  if creates.isUndefined = true then .undefined
  else mapEntries persistedConversationCreate creates

def stateKeys : List (JsStr × (Js N.Double → Js N.Double)) :=
  [(js "schemaVersion", id), (js "seed", id), (js "authenticated", id),
    (js "passwordChangeRequired", id), (js "favorites", id), (js "selectedModelId", id),
    (js "conversations", mapEntries persistedConversation),
    (js "chatRequests", mapEntries persistedChatRequest),
    (js "conversationCreates", persistedCreates), (js "drafts", id), (js "updatedAt", id)]

theorem stateKeys_nodup : ((stateKeys (N := N)).map (·.1)).Nodup := by
  simp [stateKeys]

/-- What `isDemoState` is made of. -/
structure DemoStateChecks (models : List JsStr) (v : Js N.Double) : Prop where
  shape : hasShape models v = true
  size : serializedByteLength v ≤ MAX_DEMO_STATE_BYTES
  conversations : checkConversations models [] (v.get (js "conversations")).entries = true
  requests : ∀ e ∈ (v.get (js "chatRequests")).entries,
    checkRequest (v.get (js "conversations")) e = true
  creates : ∀ e ∈ (v.get (js "conversationCreates")).entries,
    checkCreate models (v.get (js "conversations")) e = true
  active : ∀ e ∈ (v.get (js "conversations")).entries,
    checkActive (v.get (js "chatRequests")) e = true
  drafts : ∀ e ∈ (v.get (js "drafts")).entries,
    checkDraft (v.get (js "conversations")) e = true

theorem isDemoState_iff : isDemoState models v = true ↔ DemoStateChecks models v := by
  simp only [isDemoState, Bool.and_eq_true, decide_eq_true_eq, List.all_eq_true, and_assoc]
  constructor
  · rintro ⟨h₁, h₂, h₃, h₄, h₅, h₆, h₇⟩
    exact ⟨h₁, h₂, h₃, h₄, h₅, h₆, h₇⟩
  · rintro ⟨h₁, h₂, h₃, h₄, h₅, h₆, h₇⟩
    exact ⟨h₁, h₂, h₃, h₄, h₅, h₆, h₇⟩

/-- What the shape says of the properties that are kept. -/
theorem shape_json (h : hasShape models v = true) :
    v.isRecord = true
      ∧ (∀ key ∈ ["schemaVersion", "seed", "authenticated", "passwordChangeRequired",
        "favorites", "selectedModelId", "drafts", "updatedAt"],
        isJson N (v.get (js key)) = true)
      ∧ (v.get (js "favorites")).isArray = true
      ∧ (v.get (js "conversations")).isRecord = true
      ∧ (v.get (js "chatRequests")).isRecord = true
      ∧ ((v.get (js "conversationCreates")).isUndefined
        || (v.get (js "conversationCreates")).isRecord) = true
      ∧ (v.get (js "drafts")).isRecord = true
      ∧ isInt (v.get (js "schemaVersion")) 2 = true
      ∧ isInt (v.get (js "seed")) DEMO_SEED = true := by
  simp only [hasShape, Bool.and_eq_true, and_assoc] at h
  obtain ⟨hrecord, hversion, hseed, hauth, hpassword, harray, hfavorites, -, -, hselected,
    hconversations, hrequests, hcreates, hdrafts, htexts, hupdated, -, -⟩ := h
  refine ⟨hrecord, ?_, harray, hconversations, hrequests, hcreates, hdrafts, hversion, hseed⟩
  simp only [List.forall_mem_cons]
  refine ⟨?_, ?_, isJson_of_bool hauth, isJson_of_bool hpassword, ?_, ?_, ?_,
    isJson_of_text hupdated, by simp⟩
  · rw [eq_of_isInt (by decide) hversion]
    exact N.integer_finite (N.integer_ofInt (by decide))
  · rw [eq_of_isInt (by decide) hseed]
    exact N.integer_finite (N.integer_ofInt (by decide))
  · cases hv : v.get (js "favorites") with
    | array items =>
        rw [isJson_array]
        intro x hx
        rw [hv] at hfavorites
        exact isJson_of_text (List.all_eq_true.mp hfavorites x hx)
    | _ =>
        rw [hv] at harray
        cases harray
  · rcases Bool.or_eq_true_iff.mp hselected with hnull | htext
    · exact isJson_of_null hnull
    · exact isJson_of_text (Bool.and_eq_true_iff.mp htext).1
  · cases hv : v.get (js "drafts") with
    | record fields =>
        rw [isJson_record]
        intro e he
        rw [hv] at htexts
        exact isJson_of_string (List.all_eq_true.mp htexts e he)
    | _ =>
        rw [hv] at hdrafts
        cases hdrafts

theorem toPersistedState_eq (h : hasShape models v = true) :
    toPersistedState v = project stateKeys v := by
  obtain ⟨-, hjson, harray, -, -, -, hdrafts, hversion, hseed⟩ := shape_json h
  have hdefined := fun key hkey => defined_of_isJson (hjson key hkey)
  simp only [List.forall_mem_cons] at hdefined
  obtain ⟨h₁, h₂, h₃, h₄, h₅, h₆, h₇, h₈, -⟩ := hdefined
  have hfavorites : Js.array (v.get (js "favorites")).elements = v.get (js "favorites") := by
    cases hv : v.get (js "favorites") with
    | array items => rfl
    | _ =>
        rw [hv] at harray
        cases harray
  have hdraft : Js.record (v.get (js "drafts")).entries = v.get (js "drafts") := by
    cases hv : v.get (js "drafts") with
    | record fields => rfl
    | _ =>
        rw [hv] at hdrafts
        cases hdrafts
  have hcreates : (if (v.get (js "conversationCreates")).isUndefined = true then []
      else [(js "conversationCreates",
        mapEntries persistedConversationCreate (v.get (js "conversationCreates")))])
      = Js.optional (js "conversationCreates")
        (persistedCreates (v.get (js "conversationCreates"))) := by
    unfold persistedCreates
    by_cases hu : (v.get (js "conversationCreates")).isUndefined = true
    · rw [if_pos hu, if_pos hu]
      rfl
    · rw [if_neg hu, if_neg hu, optional_of_defined]
      rfl
  have hmap : ∀ (f : Js N.Double → Js N.Double) (x : Js N.Double) (k : JsStr),
      Js.optional k (mapEntries f x) = [(k, mapEntries f x)] :=
    fun f x k => optional_of_defined k rfl
  rw [toPersistedState, hcreates, hfavorites, hdraft,
    ← eq_of_isInt (by decide) hversion, ← eq_of_isInt (by decide) hseed]
  simp [project, stateKeys, keep, optional_of_defined, hmap, h₁, h₂, h₃, h₄, h₅, h₆, h₇, h₈]

theorem defined_of_isRecord (h : v.isRecord = true) : v.isUndefined = false := by
  cases v with
  | record fields => rfl
  | _ => cases h

theorem keeps_mapEntries {f : Js N.Double → Js N.Double} (hd : v.Distinct)
    (hrecord : v.isRecord = true)
    (h : ∀ e ∈ v.entries, Keeps N f e.2 ∧ e.2.isUndefined = false) :
    Keeps N (mapEntries f) v :=
  Keeps.values (fun _ => mapEntries_eq f) hd hrecord h

theorem keeps_project_state (hd : v.Distinct) (h : DemoStateChecks models v) :
    Keeps N (project stateKeys) v := by
  obtain ⟨hrecord, hjson, -, hconversations, hrequests, hcreates, -⟩ := shape_json h.shape
  apply Keeps.project stateKeys_nodup hrecord
  intro k hk
  simp only [List.forall_mem_cons] at hjson
  obtain ⟨h₁, h₂, h₃, h₄, h₅, h₆, h₇, h₈, -⟩ := hjson
  simp only [stateKeys, List.mem_cons, List.not_mem_nil, or_false] at hk
  rcases hk with rfl | rfl | rfl | rfl | rfl | rfl | rfl | rfl | rfl | rfl | rfl
  · exact keeps_id fun _ => h₁
  · exact keeps_id fun _ => h₂
  · exact keeps_id fun _ => h₃
  · exact keeps_id fun _ => h₄
  · exact keeps_id fun _ => h₅
  · exact keeps_id fun _ => h₆
  · apply keeps_mapEntries (hd.get _) hconversations
    intro e he
    have hvalid := isConversation_of_check h.conversations e he
    exact ⟨keeps_conversation hvalid, defined_of_isRecord (conversation_json hvalid).1⟩
  · apply keeps_mapEntries (hd.get _) hrequests
    intro e he
    have hcheck := h.requests e he
    simp only [checkRequest, Bool.and_eq_true, and_assoc] at hcheck
    have hvalid := hcheck.2.1
    exact ⟨keeps_chatRequest hvalid, defined_of_isRecord (chatRequest_json hvalid).1⟩
  · by_cases hu : (v.get (js "conversationCreates")).isUndefined = true
    · show Keeps N persistedCreates (v.get (js "conversationCreates"))
      rw [eq_undefined hu]
      exact ⟨rfl, le_refl _, id, (by rintro ⟨⟩), rfl⟩
    · rw [Bool.eq_false_iff.mpr hu, Bool.false_or] at hcreates
      have hmap : Keeps N (mapEntries persistedConversationCreate)
          (v.get (js "conversationCreates")) := by
        apply keeps_mapEntries (hd.get _) hcreates
        intro e he
        have hcheck := h.creates e he
        simp only [checkCreate, Bool.and_eq_true, and_assoc] at hcheck
        have hvalid := hcheck.2.1
        exact ⟨keeps_create hvalid, defined_of_isRecord (create_json hvalid).1⟩
      show Keeps N persistedCreates (v.get (js "conversationCreates"))
      apply hmap.congr
      · exact if_neg hu
      · rw [persistedCreates, if_neg]
        exact Bool.false_ne_true
  · exact keeps_id fun _ => h₇
  · exact keeps_id fun _ => h₈

theorem entries_persistedCreates (hd : v.Distinct) :
    (persistedCreates v).entries
      = v.entries.map fun e => (e.1, persistedConversationCreate e.2) := by
  unfold persistedCreates
  by_cases hu : v.isUndefined = true
  · rw [if_pos hu, eq_undefined hu]
    rfl
  · rw [if_neg hu, mapEntries_eq _ hd]
    rfl

/-- The projection of a valid state is valid. -/
theorem checks_persisted (hd : v.Distinct) (h : DemoStateChecks models v) :
    DemoStateChecks models (toPersistedState v) := by
  have hkeeps := keeps_project_state hd h
  rw [toPersistedState_eq h.shape]
  have hget : ∀ k ∈ stateKeys (N := N), (project stateKeys v).get k.1 = k.2 (v.get k.1) :=
    fun k hk => get_project stateKeys_nodup v hk
  simp only [stateKeys, List.forall_mem_cons, id_eq] at hget
  obtain ⟨h₁, h₂, h₃, h₄, h₅, h₆, hconversations, hrequests, hcreates, h₇, h₈, -⟩ := hget
  rw [← stateKeys] at h₁ h₂ h₃ h₄ h₅ h₆ hconversations hrequests hcreates h₇ h₈
  have hdc := hd.get (js "conversations")
  have hdr := hd.get (js "chatRequests")
  have hdn := hd.get (js "conversationCreates")
  constructor
  · have hshape := h.shape
    simp only [hasShape, Bool.and_eq_true, and_assoc] at hshape ⊢
    rw [h₁, h₂, h₃, h₄, h₅, h₆, hconversations, hrequests, hcreates, h₇, h₈]
    obtain ⟨-, k₁, k₂, k₃, k₄, k₅, k₆, k₇, k₈, k₉, -, -, k₁₀, k₁₁, k₁₂, k₁₃, k₁₄, k₁₅⟩ := hshape
    refine ⟨rfl, k₁, k₂, k₃, k₄, k₅, k₆, k₇, k₈, k₉, rfl, rfl, ?_, k₁₁, k₁₂, k₁₃, ?_, ?_⟩
    · unfold persistedCreates
      by_cases hu : (v.get (js "conversationCreates")).isUndefined = true
      · rw [if_pos hu]
        rfl
      · rw [if_neg hu]
        rfl
    · rw [mapEntries_eq _ hdc, entries, List.length_map]
      exact k₁₄
    · rw [mapEntries_eq _ hdr, entries, List.length_map]
      exact k₁₅
  · exact hkeeps.bytes_le.trans h.size
  · rw [hconversations, mapEntries_eq _ hdc]
    exact checkConversations_persisted h.conversations
  · rw [hconversations, hrequests, mapEntries_eq _ hdr]
    intro e he
    obtain ⟨e', he', rfl⟩ := List.mem_map.mp he
    exact checkRequest_persisted hdc (h.requests e' he')
  · rw [hconversations, hcreates, entries_persistedCreates hdn]
    intro e he
    obtain ⟨e', he', rfl⟩ := List.mem_map.mp he
    exact checkCreate_persisted _ hdc (h.creates e' he')
  · rw [hconversations, hrequests, mapEntries_eq _ hdc]
    intro e he
    obtain ⟨e', he', rfl⟩ := List.mem_map.mp he
    exact checkActive_persisted hdr (h.active e' he')
  · rw [hconversations, h₇]
    intro e he
    rw [checkDraft_mapEntries _ hdc]
    exact h.drafts e he

theorem keeps_state (hd : v.Distinct) (h : DemoStateChecks models v) :
    Keeps N toPersistedState v := by
  apply (keeps_project_state hd h).congr (toPersistedState_eq h.shape)
  rw [← toPersistedState_eq h.shape, toPersistedState_eq (checks_persisted hd h).shape]

end Mosaic.Web
