/-
A conversation as its owner reads it: `_materialize` of
app/conversations/repository.py, and the response `_response` of
app/conversations/service.py builds of it under the contract of
app/contracts/conversation.py.

# Three reads

`get` loads the conversation, its messages and its requests in three
statements of one READ COMMITTED transaction: others commit between them,
so each read has a store of its own here.

# The title

The column `title` is written when the conversation is opened and read
here only. It is an argument of the read instead of a column of the
model.
-/
import Mosaic.Chat.Repository
import Mosaic.Lib.PyStr

namespace Mosaic.Chat

open Lib

-- =============================================================== records

/-- `ConversationMessageRecord`, as `_materialize_loaded` builds it. -/
structure ConversationMessageRecord where
  messageId : Nat
  role : MessageRole
  content : String
  status : MessageStatus
  createdAt : Nat
  requestId : Option Nat
deriving Repr, DecidableEq

/-- `ConversationRecord`. -/
structure ConversationRecord where
  conversationId : Nat
  tenantId : Nat
  productModelId : String
  title : String
  messages : List ConversationMessageRecord
  updatedAt : Nat
  activeRequestId : Option Nat
  activeRequestCursor : Option Int
deriving Repr, DecidableEq

/-- A conversation joined with its product (`_conversation_query`). -/
structure ConversationRow where
  conversationId : Nat
  conversation : Conversation
  title : Option String
  product : Catalog.ProductModel

-- ================================================================= reads

/-- The first read, of the conversation a user owns. -/
def conversationRow (catalog : Catalog.CatalogRows) (title : Option String)
    (tenantId actorUserId conversationId : Nat) (s : Store) : Option ConversationRow := do
  let conversation ← lockConversation s tenantId actorUserId conversationId
  let product ← catalog.products.get conversation.productModelId
  return { conversationId, conversation, title, product }

/-- `Messages.role.in_(["user", "assistant"])`. -/
def MessageRole.shown : MessageRole → Bool
  | .user => true
  | .assistant => true
  | _ => false

/-- The second read, in the order of the transcript. -/
def messageRows (tenantId conversationId : Nat) (s : Store) : List (Nat × Message) :=
  s.messages.ordered (fun a b => a.2.sequenceNo ≤ b.2.sequenceNo) fun e =>
    e.2.tenantId == tenantId && e.2.conversationId == conversationId && e.2.role.shown

/-- The third read, the newest request first. -/
def requestRows (tenantId conversationId : Nat) (s : Store) :
    List (Nat × InferenceRequest) :=
  s.requests.ordered (fun a b => b.2.createdAt ≤ a.2.createdAt) fun e =>
    e.2.tenantId == tenantId && e.2.conversationId == conversationId

/-- `latest_request_by_message`: the newest request that answers into a
message. -/
def latestRequestFor (requests : List (Nat × InferenceRequest)) (messageId : Nat) :
    Option Nat :=
  (requests.find? fun e => e.2.messageId == messageId).map (·.2.requestId)

/-- Python's `a or b` of an optional string. -/
def orText (a : Option String) (b : String) : String :=
  match a with
  | some text => if text = "" then b else text
  | none => b

/-- `(conversation.title or product.display_name or "新对话")[:240]`. -/
def ConversationRow.shownTitle (row : ConversationRow) : String :=
  String.ofList
    ((orText row.title (orText (some row.product.displayName) "新对话")).toList.take 240)

/-- One message of the record. -/
def messageRecord (requests : List (Nat × InferenceRequest)) (e : Nat × Message) :
    ConversationMessageRecord :=
  { messageId := e.1, role := e.2.role, content := e.2.content, status := e.2.status
    createdAt := e.2.createdAt, requestId := latestRequestFor requests e.1 }

/-- `_materialize_loaded`. -/
def materializeLoaded (row : ConversationRow) (tenantId : Nat)
    (messages : List (Nat × Message)) (requests : List (Nat × InferenceRequest)) :
    Except ChatError ConversationRecord := do
  let active ← match row.conversation.activeInferenceRequestId with
    | none => pure none
    | some id => do
        let e ← orRaise (requests.find? fun e => e.1 == id)
          (.infrastructure "CONVERSATION_STATE_INVALID")
        pure (some e.2)
  return { conversationId := row.conversationId, tenantId
           productModelId := row.product.modelKey, title := row.shownTitle
           messages := messages.map (messageRecord requests)
           updatedAt := row.conversation.updatedAt
           activeRequestId := active.map (·.requestId)
           activeRequestCursor := active.map (·.lastEventSequence) }

/-- `_materialize`: the messages are read in one store, the requests in
another. -/
def materialize (row : ConversationRow) (tenantId : Nat) (atMessages atRequests : Store) :
    Except ChatError ConversationRecord :=
  materializeLoaded row tenantId (messageRows tenantId row.conversationId atMessages)
    (requestRows tenantId row.conversationId atRequests)

-- ============================================================== contract

inductive PublicRole
  | user
  | assistant
deriving Repr, DecidableEq

inductive PublicMessageStatus
  | streaming
  | complete
  | stopped
  | failed
deriving Repr, DecidableEq

/-- `_public_message_status`. -/
def publicMessageStatus : MessageStatus → PublicMessageStatus
  | .accepted => .complete
  | .completed => .complete
  | .streaming => .streaming
  | .stopped => .stopped
  | .failed => .failed

/-- `ConversationMessage`. -/
structure ConversationMessage where
  messageId : Nat
  role : PublicRole
  content : String
  status : PublicMessageStatus
  createdAt : Nat
  requestId : Option Nat
deriving Repr, DecidableEq

/-- `ConversationResponse`. -/
structure ConversationResponse where
  conversationId : Nat
  productModelId : String
  title : String
  messages : List ConversationMessage
  updatedAt : Nat
  activeRequestId : Option Nat
  activeRequestCursor : Option Int
deriving Repr, DecidableEq

/-- A pydantic `ValidationError`, by the model and the field it names. -/
structure ContractError where
  model : String
  field : String
deriving Repr, DecidableEq

/-- `Field(min_length=1, max_length=limit)`. -/
def lengthWithin (limit : Nat) (s : String) : Bool := 1 ≤ PyStr.len s && PyStr.len s ≤ limit

/-- One message of the response. -/
def conversationMessage (m : ConversationMessageRecord) :
    Except ContractError ConversationMessage := do
  raiseIf (PyStr.len m.content > 1000000) ⟨"ConversationMessage", "content"⟩
  return { messageId := m.messageId
           role := if m.role = .user then .user else .assistant
           content := m.content, status := publicMessageStatus m.status
           createdAt := m.createdAt, requestId := m.requestId }

/-- `_response`; the ids it shows are UUIDs, which the contract accepts. -/
def conversationResponse (r : ConversationRecord) :
    Except ContractError ConversationResponse := do
  let refuse := ContractError.mk "ConversationResponse"
  let messages ← (r.messages.filter fun m => m.role.shown).mapM conversationMessage
  raiseIf (lengthWithin 200 r.productModelId = false) (refuse "product_model_id")
  raiseIf (lengthWithin 240 r.title = false) (refuse "title")
  raiseIf (messages.length > 20000) (refuse "messages")
  raiseIf (r.activeRequestCursor.any (fun c => c < -1) = true)
    (refuse "active_request_cursor")
  raiseIf (r.activeRequestId.isSome ≠ r.activeRequestCursor.isSome)
    (refuse "active_request_id")
  return { conversationId := r.conversationId, productModelId := r.productModelId
           title := r.title, messages, updatedAt := r.updatedAt
           activeRequestId := r.activeRequestId
           activeRequestCursor := r.activeRequestCursor }

/-- How `ConversationService.get` can fail on a conversation that exists. -/
inductive ReadFailure
  | domain (e : ChatError)
  | contract (e : ContractError)
deriving Repr, DecidableEq

/-- `ConversationService.get`, of a row that was found. -/
def getConversation (row : ConversationRow) (tenantId : Nat)
    (atMessages atRequests : Store) : Except ReadFailure ConversationResponse := do
  let record ← (materialize row tenantId atMessages atRequests).mapError .domain
  (conversationResponse record).mapError .contract

end Mosaic.Chat
