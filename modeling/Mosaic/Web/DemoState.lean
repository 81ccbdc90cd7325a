/-
The state of the demo (src/shared/demo/demo-state-store.ts): what counts as
a valid one, how old ones are brought up to date, and what of a state is
kept.

# Values

The code works on untyped values, and so do these functions (`Js`): a
property is read as it is there, and a check that the code makes with
`typeof` or `===` is one here. The store is given plain data; a value with
getters, functions or cycles is left out.

# Order

The checks of `isDemoState` are the code's, in its order. The sets of ids it
collects are read off the state again where they are asked for; the ids of
the messages seen so far are carried along, since they must not repeat.
-/
import Mosaic.Lib.IsoTime

namespace Mosaic.Web

open Lib

def DEMO_SEED : Int := 8202026
def MAX_DEMO_CONVERSATIONS : Nat := 32
def MAX_DEMO_MESSAGES_PER_CONVERSATION : Nat := 128
def MAX_DEMO_CHAT_REQUESTS : Nat := 64
def MAX_DEMO_DRAFT_LENGTH : Nat := 8192
def MAX_DEMO_STATE_BYTES : Nat := 512 * 1024

-- ============================================================ timestamps

/-- `canonical.replace(".000Z", "Z")`; a canonical text has one dot. -/
def dropZeroMillis (text : List Char) : List Char :=
  if ['.', '0', '0', '0', 'Z'].isSuffixOf text = true then
    text.take (text.length - 5) ++ ['Z']
  else text

/-- `isCanonicalTimestamp` of a string. -/
def canonicalStamp (s : JsStr) : Bool :=
  (dateOf s).any fun date =>
    JsonText.jsString date.iso == s || JsonText.jsString (dropZeroMillis date.iso) == s

section

variable {N : Numerals}

/-- `value === s`. -/
def isText (v : Js N.Double) (s : JsStr) : Bool := v.str? == some s

/-- `isNonEmptyString`. -/
def isNonEmptyString (v : Js N.Double) : Bool := v.str?.any fun s => s ≠ []

/-- The integer a value is. -/
def integer? : Js N.Double → Option Int
  | .number d => N.integer d
  | _ => none

/-- `value === n`. -/
def isInt (v : Js N.Double) (n : Int) : Bool := integer? v == some n

def isCanonicalTimestamp (v : Js N.Double) : Bool := v.str?.any canonicalStamp

-- ================================================================= parts

def MESSAGE_STATUSES : List JsStr := ["streaming", "complete", "stopped", "failed"].map js

def REQUEST_STATUSES : List JsStr :=
  ["streaming", "completed", "stopped", "failed", "timeout", "content_rejected"].map js

/-- `value === undefined || isNonEmptyString(value)`. -/
def isOptionalText (v : Js N.Double) : Bool := v.isUndefined || isNonEmptyString v

def isErrorBody (value : Js N.Double) : Bool :=
  value.isRecord
    && isNonEmptyString (value.get (js "code"))
    && isNonEmptyString (value.get (js "message"))
    && isNonEmptyString (value.get (js "request_id"))
    && (value.get (js "retryable")).isBool
    && ((value.get (js "details")).isUndefined || (value.get (js "details")).isNull
      || ((value.get (js "details")).isRecord && Js.isJson N (value.get (js "details"))))

def isConversationMessage (value : Js N.Double) : Bool :=
  value.isRecord
    && isNonEmptyString (value.get (js "message_id"))
    && (isText (value.get (js "role")) (js "user")
      || isText (value.get (js "role")) (js "assistant"))
    && (value.get (js "content")).isString
    && (value.get (js "status")).str?.any (fun s => s ∈ MESSAGE_STATUSES)
    && isCanonicalTimestamp (value.get (js "created_at"))
    && isOptionalText (value.get (js "request_id"))

def isConversation (value : Js N.Double) : Bool :=
  value.isRecord
    && isNonEmptyString (value.get (js "conversation_id"))
    && isNonEmptyString (value.get (js "product_model_id"))
    && isNonEmptyString (value.get (js "title"))
    && (value.get (js "messages")).isArray
    && (value.get (js "messages")).elements.all isConversationMessage
    && isCanonicalTimestamp (value.get (js "updated_at"))
    && ((value.get (js "active_request_id")).isNull
      || isNonEmptyString (value.get (js "active_request_id")))
    && ((value.get (js "active_request_cursor")).isNull
      || (integer? (value.get (js "active_request_cursor"))).any (fun n => -1 ≤ n))
    && (value.get (js "active_request_id")).isNull
      == (value.get (js "active_request_cursor")).isNull

def isChatRequest (value : Js N.Double) : Bool :=
  value.isRecord
    && isNonEmptyString (value.get (js "request_id"))
    && isNonEmptyString (value.get (js "conversation_id"))
    && isNonEmptyString (value.get (js "message_id"))
    && (value.get (js "status")).str?.any (fun s => s ∈ REQUEST_STATUSES)
    && (integer? (value.get (js "next_chunk_index"))).any (fun n => 0 ≤ n)
    && (integer? (value.get (js "turn_index"))).any (fun n => 0 ≤ n)
    && ((value.get (js "operation")).isUndefined
      || isText (value.get (js "operation")) (js "send")
      || isText (value.get (js "operation")) (js "resume")
      || isText (value.get (js "operation")) (js "regenerate"))
    && isOptionalText (value.get (js "client_request_id"))
    && isOptionalText (value.get (js "payload_fingerprint"))
    && ((value.get (js "prompt")).isUndefined || (value.get (js "prompt")).isString)
    && isOptionalText (value.get (js "script_id"))
    && ((value.get (js "error")).isUndefined || isErrorBody (value.get (js "error")))

def isConversationCreate (value : Js N.Double) : Bool :=
  value.isRecord
    && isNonEmptyString (value.get (js "client_request_id"))
    && isNonEmptyString (value.get (js "product_model_id"))
    && isNonEmptyString (value.get (js "conversation_id"))
    && isNonEmptyString (value.get (js "payload_fingerprint"))

def isLegacyDemoState (value : Js N.Double) : Bool :=
  value.isRecord
    && isInt (value.get (js "schemaVersion")) 1
    && isInt (value.get (js "seed")) DEMO_SEED
    && (value.get (js "authenticated")).isBool
    && (value.get (js "passwordChangeRequired")).isBool
    && isCanonicalTimestamp (value.get (js "updatedAt"))

-- ========================================================= sensitive keys

/-- The words of `SENSITIVE_KEY`, its last one spelled out. -/
def sensitiveWords : List JsStr :=
  ["password", "credential", "secret", "token", "authorization", "apikey", "api_key",
    "api-key"].map js

/-- The case folding of the `i` flag, which keeps ASCII and the rest
apart. -/
def lowerUnit (u : UInt16) : UInt16 := if 65 ≤ u.toNat ∧ u.toNat ≤ 90 then u + 32 else u

/-- `SENSITIVE_KEY.test(key)`. -/
def isSensitiveKey (key : JsStr) : Bool :=
  sensitiveWords.any fun word => (key.map lowerUnit).tails.any fun rest => word.isPrefixOf rest

-- ================================================================= state

/-- The ids of the messages after those already seen; none if one
repeats. -/
def seeMessages : List JsStr → List (Js N.Double) → Option (List JsStr)
  | seen, [] => some seen
  | seen, message :: messages =>
      match (message.get (js "message_id")).str? with
      | none => none
      | some id => if id ∈ seen then none else seeMessages (id :: seen) messages

variable (models : List JsStr)

/-- `CANONICAL_MODEL_IDS.has(value)`. -/
def isModelId (v : Js N.Double) : Bool := v.str?.any fun s => s ∈ models

/-- The loop over the conversations. -/
def checkConversations : List JsStr → List (JsStr × Js N.Double) → Bool
  | _, [] => true
  | seen, (id, conversation) :: rest =>
      if id = [] ∨ isConversation conversation = false
          ∨ isText (conversation.get (js "conversation_id")) id = false
          ∨ isModelId models (conversation.get (js "product_model_id")) = false
          ∨ (conversation.get (js "messages")).elements.length
            > MAX_DEMO_MESSAGES_PER_CONVERSATION then false
      else
        match seeMessages seen (conversation.get (js "messages")).elements with
        | none => false
        | some seen => checkConversations seen rest

/-- `conversationIds.has(value)`. -/
def hasConversation (conversations : Js N.Double) (v : Js N.Double) : Bool :=
  v.str?.any fun s => s ∈ conversations.entries.map (·.1)

/-- `messageIdsByConversation.get(conversationId)?.has(messageId)`. -/
def hasMessage (conversations conversationId messageId : Js N.Double) : Bool :=
  conversationId.str?.any fun cid =>
    ((conversations.get cid).get (js "messages")).elements.any fun message =>
      (message.get (js "message_id")).str?.any fun id => isText messageId id

/-- The body of the loop over the requests. -/
def checkRequest (conversations : Js N.Double) (e : JsStr × Js N.Double) : Bool :=
  let request := e.2
  e.1 ≠ [] && isChatRequest request && isText (request.get (js "request_id")) e.1
    && hasConversation conversations (request.get (js "conversation_id"))
    && hasMessage conversations (request.get (js "conversation_id"))
      (request.get (js "message_id"))
    && ((request.get (js "error")).isUndefined
      || ((request.get (js "error")).get (js "request_id")).str?.any
        (fun id => isText (request.get (js "request_id")) id))

/-- The body of the loop over the created conversations. -/
def checkCreate (conversations : Js N.Double) (e : JsStr × Js N.Double) : Bool :=
  let create := e.2
  e.1 ≠ [] && isConversationCreate create
    && isText (create.get (js "client_request_id")) e.1
    && hasConversation conversations (create.get (js "conversation_id"))
    && isModelId models (create.get (js "product_model_id"))

/-- The cursor of a request: its next chunk, or that there is none yet. -/
def cursorOf (request : Js N.Double) : Option Int :=
  (integer? (request.get (js "next_chunk_index"))).map fun n => if n > 0 then n else -1

/-- The second loop over the conversations: the active request of each. -/
def checkActive (chatRequests : Js N.Double) (e : JsStr × Js N.Double) : Bool :=
  let conversation := e.2
  (conversation.get (js "active_request_id")).isNull
    || (conversation.get (js "active_request_id")).str?.any (fun active =>
      let request := chatRequests.get active
      !request.isUndefined && isText (request.get (js "conversation_id")) e.1
        && isText (request.get (js "request_id")) active
        && (cursorOf request).any
          (fun n => isInt (conversation.get (js "active_request_cursor")) n))

/-- The body of the loop over the drafts. -/
def checkDraft (conversations : Js N.Double) (e : JsStr × Js N.Double) : Bool :=
  e.1 ∈ conversations.entries.map (·.1) && !isSensitiveKey e.1
    && e.2.str?.any (fun draft => draft.length ≤ MAX_DEMO_DRAFT_LENGTH)

/-- The first test of `isDemoState`, up to the size. -/
def hasShape (value : Js N.Double) : Bool :=
  value.isRecord
    && isInt (value.get (js "schemaVersion")) 2
    && isInt (value.get (js "seed")) DEMO_SEED
    && (value.get (js "authenticated")).isBool
    && (value.get (js "passwordChangeRequired")).isBool
    && (value.get (js "favorites")).isArray
    && (value.get (js "favorites")).elements.all isNonEmptyString
    && ((value.get (js "favorites")).elements.filterMap Js.str?).Nodup
    && (value.get (js "favorites")).elements.all (isModelId models)
    && ((value.get (js "selectedModelId")).isNull
      || (isNonEmptyString (value.get (js "selectedModelId"))
        && isModelId models (value.get (js "selectedModelId"))))
    && (value.get (js "conversations")).isRecord
    && (value.get (js "chatRequests")).isRecord
    && ((value.get (js "conversationCreates")).isUndefined
      || (value.get (js "conversationCreates")).isRecord)
    && (value.get (js "drafts")).isRecord
    && (value.get (js "drafts")).entries.all (fun e => e.2.isString)
    && isCanonicalTimestamp (value.get (js "updatedAt"))
    && (value.get (js "conversations")).entries.length ≤ MAX_DEMO_CONVERSATIONS
    && (value.get (js "chatRequests")).entries.length ≤ MAX_DEMO_CHAT_REQUESTS

/-- `serializedByteLength` of a record. -/
def serializedByteLength (value : Js N.Double) : Nat := Js.bytes N value

def isDemoState (value : Js N.Double) : Bool :=
  let conversations := value.get (js "conversations")
  let chatRequests := value.get (js "chatRequests")
  hasShape models value
    && serializedByteLength value ≤ MAX_DEMO_STATE_BYTES
    && checkConversations models [] conversations.entries
    && chatRequests.entries.all (checkRequest conversations)
    && (value.get (js "conversationCreates")).entries.all (checkCreate models conversations)
    && conversations.entries.all (checkActive chatRequests)
    && (value.get (js "drafts")).entries.all (checkDraft conversations)

-- ============================================================= migration

/-- A conversation with the cursor field; a request id that names no request
of its own counts as one without chunks. -/
def addCursor (requests : Js N.Double) (e : JsStr × Js N.Double) : JsStr × Js N.Double :=
  let candidate := e.2
  if candidate.isRecord = false
      ∨ js "active_request_cursor" ∈ candidate.entries.map (·.1) then e
  else
    let requestId := candidate.get (js "active_request_id")
    let request : Js N.Double :=
      match requestId.str? with
      | some id => requests.get id
      | none => .undefined
    let nextChunkIndex := (integer? (request.get (js "next_chunk_index"))).getD 0
    let cursor : Js N.Double :=
      if requestId.isNull = true then .null
      else if nextChunkIndex > 0 then request.get (js "next_chunk_index")
      else .number (N.ofInt (-1))
    (e.1, candidate.set (js "active_request_cursor") cursor)

def migrateConversationCursors (value : Js N.Double) : Js N.Double :=
  if value.isRecord = false ∨ isInt (value.get (js "schemaVersion")) 2 = false
      ∨ (value.get (js "conversations")).isRecord = false then value
  else if (value.get (js "chatRequests")).isRecord = false then value
  else
    value.set (js "conversations") (Js.fromEntries
      ((value.get (js "conversations")).entries.map
        (addCursor (value.get (js "chatRequests")))))

-- ============================================================== sanitizing

/-- A property that `sanitizeJson` leaves out. Assigning to `__proto__` adds
no property either. -/
def droppedKey (key : JsStr) : Bool := isSensitiveKey key || key == js "__proto__"

mutual

def sanitizeJson : Js N.Double → Js N.Double
  | .array items => .array (sanitizeItems items)
  | .record fields => .record (sanitizeFields fields)
  | v => v

def sanitizeItems : List (Js N.Double) → List (Js N.Double)
  | [] => []
  | v :: items => sanitizeJson v :: sanitizeItems items

def sanitizeFields : List (JsStr × Js N.Double) → List (JsStr × Js N.Double)
  | [] => []
  | (key, nested) :: fields =>
      if droppedKey key = true then sanitizeFields fields
      else (key, sanitizeJson nested) :: sanitizeFields fields

end

def sanitizeDetails (value : Js N.Double) : Js N.Double :=
  let sanitized := sanitizeJson value
  if sanitized.isRecord = true then sanitized else .record []

-- ============================================================== projection

/-- The property of a value under the same name. -/
def keep (value : Js N.Double) (key : String) : JsStr × Js N.Double :=
  (js key, value.get (js key))

/-- The same, if it is there. -/
def keepDefined (value : Js N.Double) (key : String) : List (JsStr × Js N.Double) :=
  Js.optional (js key) (value.get (js key))

def persistedError (error : Js N.Double) : Js N.Double :=
  .record
    ([keep error "code", keep error "message", keep error "request_id", keep error "retryable"]
      ++ if (error.get (js "details")).isUndefined = true then []
        else [(js "details", if (error.get (js "details")).isNull = true then .null
          else sanitizeDetails (error.get (js "details")))])

def persistedMessage (message : Js N.Double) : Js N.Double :=
  .record
    ([keep message "message_id", keep message "role", keep message "content",
        keep message "status", keep message "created_at"]
      ++ keepDefined message "request_id")

def persistedConversation (conversation : Js N.Double) : Js N.Double :=
  .record
    [keep conversation "conversation_id", keep conversation "product_model_id",
      keep conversation "title",
      (js "messages",
        .array ((conversation.get (js "messages")).elements.map persistedMessage)),
      keep conversation "updated_at", keep conversation "active_request_id",
      keep conversation "active_request_cursor"]

def persistedChatRequest (request : Js N.Double) : Js N.Double :=
  .record
    ([keep request "request_id", keep request "conversation_id", keep request "message_id",
        keep request "status", keep request "next_chunk_index", keep request "turn_index"]
      ++ keepDefined request "operation" ++ keepDefined request "client_request_id"
      ++ keepDefined request "payload_fingerprint" ++ keepDefined request "prompt"
      ++ keepDefined request "script_id"
      ++ if (request.get (js "error")).isUndefined = true then []
        else [(js "error", persistedError (request.get (js "error")))])

def persistedConversationCreate (create : Js N.Double) : Js N.Double :=
  .record
    [keep create "client_request_id", keep create "product_model_id",
      keep create "conversation_id", keep create "payload_fingerprint"]

/-- `Object.fromEntries(Object.entries(value).map(…))`. -/
def mapEntries (f : Js N.Double → Js N.Double) (value : Js N.Double) : Js N.Double :=
  Js.fromEntries (value.entries.map fun e => (e.1, f e.2))

/-- `toPersistedState`. -/
def toPersistedState (state : Js N.Double) : Js N.Double :=
  .record
    ([(js "schemaVersion", .number (N.ofInt 2)), (js "seed", .number (N.ofInt DEMO_SEED)),
        keep state "authenticated", keep state "passwordChangeRequired",
        (js "favorites", .array (state.get (js "favorites")).elements),
        keep state "selectedModelId",
        (js "conversations",
          mapEntries persistedConversation (state.get (js "conversations"))),
        (js "chatRequests", mapEntries persistedChatRequest (state.get (js "chatRequests")))]
      ++ (if (state.get (js "conversationCreates")).isUndefined = true then []
        else [(js "conversationCreates", mapEntries persistedConversationCreate
          (state.get (js "conversationCreates")))])
      ++ [(js "drafts", .record (state.get (js "drafts")).entries), keep state "updatedAt"])

/-- `cloneValue`; what is written is always read back. -/
def cloneValue (value : Js N.Double) : Js N.Double :=
  (Js.parse N (Js.stringify N value)).getD .undefined

end

-- ================================================================ scenario

/-- What the store reads of `DEMO_SCENARIO`. -/
structure Scenario (N : Numerals) where
  modelIds : List JsStr
  favorites : List JsStr
  selectedModelId : JsStr
  conversations : List (Js.Data N.Double)
  chatRequests : Js.Data N.Double
  drafts : Js.Data N.Double

section

variable {N : Numerals} (scenario : Scenario N)

/-- The conversations of the scenario under their ids. -/
def Scenario.conversationEntries : List (JsStr × Js N.Double) :=
  scenario.conversations.map fun conversation =>
    (((conversation.value.get (js "conversation_id")).str?).getD [],
      cloneValue conversation.value)

/-- `initial` at the time `stamp`. -/
def initialState (stamp : JsStr) : Js N.Double :=
  .record
    [(js "schemaVersion", .number (N.ofInt 2)), (js "seed", .number (N.ofInt DEMO_SEED)),
      (js "authenticated", .bool false), (js "passwordChangeRequired", .bool true),
      (js "favorites", .array (scenario.favorites.map .string)),
      (js "selectedModelId", .string scenario.selectedModelId),
      (js "conversations", Js.fromEntries scenario.conversationEntries),
      (js "chatRequests", cloneValue scenario.chatRequests.value),
      (js "drafts", .record scenario.drafts.value.entries), (js "updatedAt", .string stamp)]

end

end Mosaic.Web
