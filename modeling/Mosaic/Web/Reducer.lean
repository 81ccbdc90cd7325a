/-
The conversation reducer of the web client
(apps/web/src/features/chat/conversation-reducer.ts; types from
packages/contracts/src/index.ts).

# Values for objects

The reducer copies the conversation before every change and returns the
state it was given when an event is ignored, so a value model loses
nothing of `reduceConversation`. The one place object identity shows is
the `reducerMetadata` cache of `reduceConversationEvent`; there a
conversation object is a conversation together with what the cache holds
for it.
-/
import Mosaic.Chat.Sse

namespace Mosaic.Web

open Chat (JsString ClientBody ClientEvent)

-- =============================================================== contracts

inductive ConversationRole
  | user
  | assistant
deriving Repr, DecidableEq

inductive ConversationMessageStatus
  | streaming
  | complete
  | stopped
  | failed
deriving Repr, DecidableEq

/-- A `ConversationMessage`; `request_id` may be absent or null. -/
structure ConversationMessage where
  messageId : JsString
  role : ConversationRole
  content : JsString
  status : ConversationMessageStatus
  createdAt : JsString
  requestId : Option JsString
deriving Repr, DecidableEq

/-- A `Conversation`. The cursor is null without an active request, -1
before its first accepted event. -/
structure Conversation where
  conversationId : JsString
  productModelId : JsString
  title : JsString
  messages : List ConversationMessage
  updatedAt : JsString
  activeRequestId : Option JsString
  activeRequestCursor : Option Int
deriving Repr, DecidableEq

-- ================================================================= state

/-- `Omit<ConversationReducerState, "conversation">`. -/
structure ReducerMetadata where
  requestId : Option JsString
  messageId : Option JsString
  /-- Last accepted sequence; -1 means no event yet. -/
  lastSequence : Int
  terminal : Bool
deriving Repr, DecidableEq

structure ConversationReducerState extends ReducerMetadata where
  conversation : Conversation
deriving Repr, DecidableEq

/-- `findStreamingAssistant`. -/
def findStreamingAssistant (conversation : Conversation) (requestId : Option JsString) :
    Option ConversationMessage :=
  match requestId with
  | none => none
  | some requestId => conversation.messages.find? fun message =>
      message.role == .assistant && message.status == .streaming
        && message.requestId == some requestId

/-- `initialMetadata`. -/
def initialMetadata (conversation : Conversation) : ReducerMetadata :=
  let requestId := conversation.activeRequestId
  { requestId
    messageId := (findStreamingAssistant conversation requestId).map (·.messageId)
    lastSequence := conversation.activeRequestCursor.getD (-1)
    terminal := requestId.isNone }

/-- `createConversationReducerState`. -/
def createConversationReducerState (conversation : Conversation) :
    ConversationReducerState :=
  { initialMetadata conversation with conversation }

-- =============================================================== reducer

/-- The first event of a request whose placeholder is not there yet: it
binds the message it names, a new one if need be. -/
def bindAssistant (state : ConversationReducerState) (event : ClientEvent) :
    ConversationReducerState :=
  let messages := state.conversation.messages
  let named := fun message : ConversationMessage => message.messageId == event.messageId
  if event.body.isStarted = false ∨ event.sequence ≠ 0
      ∨ event.conversationId ≠ state.conversation.conversationId
      ∨ state.requestId ≠ some event.requestId then state
  else if (messages.find? fun m => named m && m.role == .assistant) = none
      ∧ messages.any named = true then state
  else
    let bound := match messages.findIdx? named with
      | some index => messages.modify index fun m =>
          { m with status := .streaming, requestId := some event.requestId }
      | none => messages ++
          [{ messageId := event.messageId, role := .assistant, content := []
             status := .streaming, createdAt := state.conversation.updatedAt
             requestId := some event.requestId }]
    { requestId := some event.requestId, messageId := some event.messageId
      lastSequence := 0, terminal := false
      conversation := { state.conversation with
        messages := bound, activeRequestId := some event.requestId
        activeRequestCursor := some 0 } }

/-- The state after an event that was accepted: `change` is what it does
to the message, `active` whether the request is still running. -/
def accept (state : ConversationReducerState) (event : ClientEvent) (index : Nat)
    (active : Bool) (change : ConversationMessage → ConversationMessage) :
    ConversationReducerState :=
  { state with
    lastSequence := event.sequence, terminal := !active
    conversation := { state.conversation with
      messages := state.conversation.messages.modify index fun m =>
        { change m with requestId := state.requestId }
      activeRequestId := if active then state.conversation.activeRequestId else none
      activeRequestCursor := if active then some event.sequence else none } }

/-- The `switch` over the type of an event at the next sequence. A
`started` was refused before it. -/
def applyEvent (state : ConversationReducerState) (event : ClientEvent) (index : Nat) :
    ConversationReducerState :=
  match event.body with
  | .started => state
  | .delta text => accept state event index true fun m =>
      { m with content := m.content ++ text, status := .streaming }
  | .completed content => accept state event index false fun m =>
      { m with content, status := .complete }
  | .stopped => accept state event index false fun m => { m with status := .stopped }
  | .failed _ => accept state event index false fun m => { m with status := .failed }

/-- `reduceConversation`: fold one stream event. The client's numbers are
doubles, so the sequences here are its own below 2^53. -/
def reduceConversation (state : ConversationReducerState) (event : ClientEvent) :
    ConversationReducerState :=
  if state.terminal = true then state
  else match state.messageId with
    | none => bindAssistant state event
    | some messageId =>
        if state.requestId ≠ some event.requestId
            ∨ event.conversationId ≠ state.conversation.conversationId
            ∨ event.messageId ≠ messageId
            ∨ event.sequence ≠ state.lastSequence + 1 then state
        else if state.lastSequence < 0 then
          if event.body.isStarted = false ∨ event.sequence ≠ 0 then state
          else
            { state with
              lastSequence := 0, terminal := false
              conversation := { state.conversation with activeRequestCursor := some 0 } }
        else if event.sequence = 0 ∨ event.body.isStarted = true then state
        else match state.conversation.messages.findIdx? fun m => m.messageId == messageId with
          | none => state
          | some index => applyEvent state event index

-- ====================================================== the public helper

/-- A conversation object and its entry of `reducerMetadata`, if any. -/
structure ConversationObject where
  conversation : Conversation
  metadata : Option ReducerMetadata
deriving Repr, DecidableEq

/-- The state the helper folds from: the cached one, or a fresh one. -/
def ConversationObject.state (c : ConversationObject) : ConversationReducerState :=
  match c.metadata with
  | some metadata => { metadata with conversation := c.conversation }
  | none => createConversationReducerState c.conversation

/-- `reduceConversationEvent`. Every state that `reduceConversation` can
return has its metadata attached to its conversation. -/
def reduceConversationEvent (c : ConversationObject) (event : ClientEvent) :
    ConversationObject :=
  let next := reduceConversation c.state event
  { conversation := next.conversation, metadata := some next.toReducerMetadata }

end Mosaic.Web
