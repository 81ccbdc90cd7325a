/-
The event stream on the wire: the frames `_sse_body` writes
(app/api/conversations.py) and the client that reads them, `parseSse` of
the web application (services/api-conversation-service.ts).

# The server

The service hands over validated events, each dumped from its contract
model with the fields in the model's order, and `None` for a heartbeat.
An identifier goes out as the text of its UUID, a parameter here. The
errors the service writes carry no details, so the dump says `null`.

# The client

The client decodes the chunks of the response, cuts the text into lines
at LF, CR or CRLF, and dispatches a record at every blank line. It is a
generator: what it has yielded stands, and an error ends it. The double
arithmetic of its runtime is a parameter (`Doubles`), with the two facts
about small integers the client relies on.
-/
import Mosaic.Chat.Stream
import Mosaic.Lib.JsonText
import Mosaic.Lib.Utf8

namespace Mosaic.Chat

open Lib JsonText

-- ================================================================ server

/-- The `type` of an event. -/
def EventBody.type : EventBody → String
  | .started => "started"
  | .delta _ => "delta"
  | .completed _ => "completed"
  | .stopped => "stopped"
  | .failed _ => "failed"

section

variable (uuid : Nat → String)

/-- The fields an event has for its type. -/
def EventBody.dump : EventBody → List (String × Json)
  | .started => []
  | .delta text => [("delta", .str text)]
  | .completed content => [("content", .str content)]
  | .stopped => []
  | .failed error =>
      [("error", .obj [("code", .str error.code), ("message", .str error.message),
        ("request_id", .str (uuid error.requestId)),
        ("retryable", .bool error.retryable), ("details", .null)])]

/-- `model_dump(mode="json")` of a validated event. -/
def StreamEvent.dump (e : StreamEvent) : List (String × Json) :=
  [("request_id", .str (uuid e.requestId)),
   ("conversation_id", .str (uuid e.conversationId)),
   ("message_id", .str (uuid e.messageId)), ("type", .str e.body.type),
   ("sequence", .int e.sequenceNo)] ++ e.body.dump uuid

/-- What `_sse_body` gets from the service in one turn, and whether its
admission was lost by then. -/
structure SseItem where
  lost : Bool
  event : Option StreamEvent
deriving Repr, DecidableEq

/-- The frame of an event. -/
def sseFrame (e : StreamEvent) : List Char :=
  "id: ".toList ++ integer e.sequenceNo ++ '\n' :: "data: ".toList
    ++ dumps (.obj (e.dump uuid)) ++ ['\n', '\n']

/-- `_sse_body`: what it writes, and the error it ends with. -/
def sseBody : List SseItem → List Char × Option StreamError
  | [] => ([], none)
  | item :: items =>
      if item.lost = true then ([], none)
      else match item.event with
        | none =>
            let (text, error) := sseBody items
            (": heartbeat\n\n".toList ++ text, error)
        | some e =>
            if e.sequenceNo < 0 then ([], some (.infrastructure "STREAM_EVENT_INVALID"))
            else
              let (text, error) := sseBody items
              (sseFrame uuid e ++ text, error)

end

-- ============================================================ validation

/-- The double arithmetic of the client's runtime: the value of a numeric
literal and the successor of an integer. Both are exact below `2^53`. -/
structure Doubles where
  read : List Char → JsNumber
  succ : Int → Int
  read_exact : ∀ n : Nat, n < 2 ^ 53 → read (Nat.toDigits 10 n) = .integer n
  succ_exact : ∀ n : Int, 0 ≤ n → n < 2 ^ 53 → succ n = n + 1

abbrev JsString := List UInt16

def JsValue.object? : JsValue → Option (List (JsString × JsValue))
  | .object fields => some fields
  | _ => none

def JsValue.string? : JsValue → Option JsString
  | .string s => some s
  | _ => none

def JsValue.bool? : JsValue → Option Bool
  | .bool b => some b
  | _ => none

/-- `Number.isInteger`. -/
def JsValue.integer? : JsValue → Option Int
  | .number (.integer n) => some n
  | _ => none

/-- An own property; of two with one name the later one counts. -/
def property (fields : List (JsString × JsValue)) (key : String) : Option JsValue :=
  (fields.reverse.find? fun f => f.1 == jsString key.toList).map (·.2)

/-- `exactKeys`. -/
def exactKeys (fields : List (JsString × JsValue)) (required optional : List String) :
    Bool :=
  fields.all (fun f => (required ++ optional).any fun k => f.1 == jsString k.toList)
    && required.all fun k => (property fields k).isSome

/-- `nonEmptyString`. -/
def nonEmptyString (v : Option JsValue) : Option JsString :=
  (v.bind JsValue.string?).filter fun s => !s.isEmpty

/-- `PUBLIC_ERROR_CODE`. -/
def publicCode (s : JsString) : Bool :=
  !s.isEmpty && s.all fun u =>
    (0x41 ≤ u && u ≤ 0x5A) || (0x30 ≤ u && u ≤ 0x39) || u == 0x5F

/-- The `error` of a failed event; `details` may be absent. -/
structure ClientError where
  code : JsString
  message : JsString
  requestId : JsString
  retryable : Bool
  details : Option JsValue

inductive ClientBody
  | started
  | delta (text : JsString)
  | completed (content : JsString)
  | stopped
  | failed (error : ClientError)

def ClientBody.terminal : ClientBody → Bool
  | .completed _ => true
  | .stopped => true
  | .failed _ => true
  | _ => false

def ClientBody.isStarted : ClientBody → Bool
  | .started => true
  | _ => false

/-- A `ChatStreamEvent` of the client. -/
structure ClientEvent where
  requestId : JsString
  conversationId : JsString
  messageId : JsString
  sequence : Int
  body : ClientBody

/-- `isErrorBody`, with the typed view of what passes. -/
def errorBody (v : JsValue) : Option ClientError := do
  let fields ← JsValue.object? v
  let code ← (nonEmptyString (property fields "code")).filter publicCode
  let message ← nonEmptyString (property fields "message")
  let requestId ← nonEmptyString (property fields "request_id")
  let retryable ← (property fields "retryable").bind JsValue.bool?
  if exactKeys fields ["code", "message", "request_id", "retryable"] ["details"] = true
      ∧ (match property fields "details" with
        | some .null => true
        | some details => (JsValue.object? details).isSome
        | none => true) = true then
    some { code, message, requestId, retryable, details := property fields "details" }
  else none

def commonKeys : List String :=
  ["type", "request_id", "conversation_id", "message_id", "sequence"]

/-- The part of `isChatStreamEvent` that depends on the type. -/
def clientBody (fields : List (JsString × JsValue)) (sequence : Int) (type : JsString) :
    Option ClientBody :=
  if type = jsString "started".toList then
    if exactKeys fields commonKeys [] = true ∧ sequence = 0 then some .started else none
  else if type = jsString "delta".toList then do
    let text ← nonEmptyString (property fields "delta")
    if exactKeys fields (commonKeys ++ ["delta"]) [] = true then some (.delta text)
    else none
  else if type = jsString "completed".toList then do
    let content ← (property fields "content").bind JsValue.string?
    if exactKeys fields (commonKeys ++ ["content"]) [] = true then
      some (.completed content)
    else none
  else if type = jsString "stopped".toList then
    if exactKeys fields commonKeys [] = true then some .stopped else none
  else if type = jsString "failed".toList then do
    let error ← (property fields "error").bind errorBody
    if exactKeys fields (commonKeys ++ ["error"]) [] = true then some (.failed error)
    else none
  else none

/-- `isChatStreamEvent`, with the typed view of what passes. -/
def chatStreamEvent (v : JsValue) : Option ClientEvent := do
  let fields ← JsValue.object? v
  let type ← (property fields "type").bind JsValue.string?
  let requestId ← nonEmptyString (property fields "request_id")
  let conversationId ← nonEmptyString (property fields "conversation_id")
  let messageId ← nonEmptyString (property fields "message_id")
  let sequence ← ((property fields "sequence").bind JsValue.integer?).filter (0 ≤ ·)
  let body ← clientBody fields sequence type
  return { requestId, conversationId, messageId, sequence, body }

-- ================================================================ client

/-- The arguments of `parseSse` that stay as they are. -/
structure SseRequest where
  conversationId : JsString
  resumeCursor : Option Int

/-- `resumeCursor !== null && resumeCursor >= 0`. -/
def SseRequest.resumed (q : SseRequest) : Bool := q.resumeCursor.any (0 ≤ ·)

/-- The variables of `parseSse`, its buffer apart. `requestId`, `messageId`
and `lastSequence` are the caller's `stream`. -/
structure Client where
  requestId : JsString
  messageId : JsString
  lastSequence : Int
  dataLines : List (List Char)
  eventId : Option (List Char)
  started : Bool
  terminal : Bool
  received : Bool
  expectedSequence : Int

/-- The client before its first read. -/
def Client.start (d : Doubles) (q : SseRequest) (requestId messageId : JsString) :
    Client :=
  { requestId, messageId
    lastSequence := q.resumeCursor.getD (-1)
    dataLines := [], eventId := none, started := false, terminal := false
    received := false
    expectedSequence :=
      if q.resumed = true then d.succ (q.resumeCursor.getD (-1)) else 0 }

/-- `^(?:0|[1-9]\d*)$`. -/
def integerId (id : List Char) : Bool :=
  id == ['0'] || (!id.isEmpty && id.head? != some '0' && id.all Char.isDigit)

section

variable (d : Doubles) (q : SseRequest)

/-- `dispatch`. -/
def dispatch (c : Client) (payload : List Char) : Except String (ClientEvent × Client) := do
  let id ← orRaise (c.eventId.filter integerId)
    "SSE event id is missing or not an integer"
  let value ← orRaise (JsonText.parse d.read payload) "Malformed stream JSON"
  let event ← orRaise (chatStreamEvent value) "Invalid stream event"
  raiseIf (d.read id ≠ .integer event.sequence) "SSE event id does not match sequence"
  raiseIf (event.conversationId ≠ q.conversationId
      ∨ (c.requestId ≠ [] ∧ event.requestId ≠ c.requestId)
      ∨ (c.messageId ≠ [] ∧ event.messageId ≠ c.messageId))
    "Stream IDs do not match request"
  raiseIf (c.terminal = true) "Stream emitted after terminal event"
  let isStarted := event.body.isStarted
  raiseIf (c.received = false ∧ q.resumed = false
      ∧ (isStarted = false ∨ event.sequence ≠ 0))
    "Stream did not start with sequence zero"
  raiseIf (c.received = false ∧ q.resumed = true ∧ isStarted = true)
    "Resumed stream repeated started event"
  raiseIf (c.received = true ∧ isStarted = true)
    "Stream emitted started after its first event"
  let c := if c.received = true then c
    else { c with started := isStarted, received := true
                  requestId := event.requestId, messageId := event.messageId }
  raiseIf (event.sequence ≠ c.expectedSequence) "Stream sequence is not consecutive"
  raiseIf (q.resumed = false ∧ c.started = false)
    "Stream did not start with sequence zero"
  raiseIf ((match event.body with
      | .failed error => error.requestId != event.requestId
      | _ => false) = true)
    "Failure request ID does not match stream"
  return (event, { c with
    expectedSequence := d.succ event.sequence, lastSequence := event.sequence
    terminal := c.terminal || event.body.terminal })

/-- The value of a field after its name: one blank is dropped. -/
def fieldValue : List Char → List Char
  | ' ' :: rest => rest
  | cs => cs

/-- `consumeLine`. -/
def consumeLine (c : Client) (line : List Char) :
    Except String (Option ClientEvent × Client) :=
  match line with
  | [] =>
      if c.dataLines = [] then do
        raiseIf (c.eventId ≠ none) "SSE event id has no data payload"
        return (none, c)
      else do
        let (event, c) ← dispatch d q { c with dataLines := [] }
          (['\n'].intercalate c.dataLines)
        return (some event, { c with eventId := none })
  | ':' :: _ => return (none, c)
  | 'i' :: 'd' :: ':' :: rest => do
      raiseIf (c.eventId ≠ none) "Duplicate SSE event id"
      return (none, { c with eventId := some (fieldValue rest) })
  | 'd' :: 'a' :: 't' :: 'a' :: ':' :: rest =>
      return (none, { c with dataLines := c.dataLines ++ [fieldValue rest] })
  | _ => .error "Unsupported SSE field"

def separator (c : Char) : Bool := c == '\n' || c == '\r'

/-- The first line of the buffer and what follows it. A CR at the end may
be half of a CRLF and waits for the next chunk. -/
def nextLine (buffer : List Char) : Option (List Char × List Char) :=
  match buffer.dropWhile (fun c => !separator c) with
  | [] => none
  | ['\r'] => none
  | '\r' :: '\n' :: rest => some (buffer.takeWhile (fun c => !separator c), rest)
  | _ :: rest => some (buffer.takeWhile (fun c => !separator c), rest)

theorem nextLine_shorter {buffer line rest : List Char}
    (h : nextLine buffer = some (line, rest)) : rest.length < buffer.length := by
  have hle := (List.dropWhile_sublist (l := buffer) (fun c => !separator c)).length_le
  unfold nextLine at h
  split at h
  · cases h
  · cases h
  · next heq =>
      cases h
      rw [heq] at hle
      simp only [List.length_cons] at hle
      omega
  · next heq =>
      cases h
      rw [heq] at hle
      simp only [List.length_cons] at hle
      omega

/-- What a generator has yielded, and how it goes on or ends. -/
abbrev Yields (α : Type) := List ClientEvent × Except String α

/-- The inner loop: every complete line of the buffer. -/
def drain (c : Client) (buffer : List Char) : Yields (Client × List Char) :=
  match h : nextLine buffer with
  | none => ([], .ok (c, buffer))
  | some (line, rest) =>
      match consumeLine d q c line with
      | .error e => ([], .error e)
      | .ok (event, c) =>
          have := nextLine_shorter h
          let (events, end_) := drain c rest
          (event.toList ++ events, end_)
termination_by buffer.length

/-- The outer loop: one chunk after the other. -/
def readChunks (t : Utf8.TextDecoder) (c : Client) (buffer : List Char) :
    List (List UInt8) → Yields (Utf8.TextDecoder × Client × List Char)
  | [] => ([], .ok (t, c, buffer))
  | chunk :: chunks =>
      match drain d q c (buffer ++ (t.decode chunk).2) with
      | (events, .error e) => (events, .error e)
      | (events, .ok (c, buffer)) =>
          let (more, end_) := readChunks (t.decode chunk).1 c buffer chunks
          (events ++ more, end_)

/-- The end of the response: a last CR, and the frame it must not cut. -/
def finishStream (t : Utf8.TextDecoder) (c : Client) (buffer : List Char) :
    List ClientEvent × Option String :=
  let buffer := buffer ++ t.finish
  let last : Except String (Option ClientEvent × Client × List Char) :=
    if buffer.getLast? = some '\r' then do
      let (event, c) ← consumeLine d q c buffer.dropLast
      return (event, c, [])
    else return (none, c, buffer)
  match last with
  | .error e => ([], some e)
  | .ok (event, c, buffer) =>
      (event.toList,
        if buffer ≠ [] ∨ c.dataLines ≠ [] ∨ c.eventId ≠ none then
          some "SSE stream ended with an incomplete event frame"
        else if c.received = false then some "Empty stream"
        else if c.terminal = false then some "Stream ended before terminal event"
        else none)

/-- `parseSse`: the events it yields, and the error it throws. -/
def parseSse (requestId messageId : JsString) (chunks : List (List UInt8)) :
    List ClientEvent × Option String :=
  match readChunks d q .start (Client.start d q requestId messageId) [] chunks with
  | (events, .error e) => (events, some e)
  | (events, .ok (t, c, buffer)) =>
      let (last, error) := finishStream d q t c buffer
      (events ++ last, error)

end

end Mosaic.Chat
