/-
The message envelope and its two ends: the codec
(app/messaging/rabbitmq.py) and what the consumers do with a body they
cannot read (scripts/chat_consumer.py, scripts/generation_consumer.py).

# What the interpreter decides

`from_body` leaves some things to Python: how deep `json.loads` and `str`
may recurse before they raise, the digits `UUID` accepts beyond ASCII, and
the text `str` makes of a float or a container that takes a field's place.
They are the fields of `Interpreter`.
-/
import Mosaic.Lib.Checked
import Mosaic.Lib.PyJson
import Mosaic.Lib.Utf8
import Mosaic.Lib.Uuid
import Mosaic.Outbox.Types

namespace Mosaic.Messaging

open Lib
open Lib.JsonText (JsValue JsNumber jsString)
open Outbox (eventTypeValid supportedRoutingKey)

/-- What the codec relies on of the interpreter that runs it. -/
structure Interpreter where
  /-- Brackets `json.loads` can have open. -/
  recursionLimit : Nat
  recursionLimitPos : 0 < recursionLimit
  /-- Containers `str` can descend into. -/
  reprLimit : Nat
  decimals : Uuid.Decimals
  /-- `str` of the float a literal denotes. -/
  floatText : List Char → List Nat
  /-- `str` of a list or a dict. -/
  containerText : JsValue → List Nat

-- ============================================================== envelopes

structure UUID where
  int : Nat
  bound : int < 2 ^ 128
deriving DecidableEq

/-- `EventEnvelope`, with what `__post_init__` checks. -/
structure EventEnvelope where
  eventId : UUID
  tenantId : UUID
  aggregateType : String
  aggregateId : UUID
  eventType : String
  aggregateVersion : Int
  routingKey : Option String
  aggregateTypeOk : eventTypeValid aggregateType = true
  eventTypeOk : eventTypeValid eventType = true
  versionOk : 1 ≤ aggregateVersion
  routingKeyOk : ∀ key, routingKey = some key → supportedRoutingKey key = true

/-- Routing is transport metadata: the body does not carry it. -/
def EventEnvelope.unrouted (e : EventEnvelope) : EventEnvelope :=
  { e with routingKey := none, routingKeyOk := fun _ h => by cases h }

/-- The exceptions of the codec, by what the consumers tell apart. -/
inductive Raised
  | valueError (message : String)
  | typeError (message : String)
  | recursionError
deriving Repr, DecidableEq

-- =================================================================== body

def EventEnvelope.fields (e : EventEnvelope) : List (String × Json) :=
  [("aggregate_id", .str (Uuid.text e.aggregateId.int)),
   ("aggregate_type", .str e.aggregateType),
   ("aggregate_version", .int e.aggregateVersion),
   ("event_id", .str (Uuid.text e.eventId.int)),
   ("event_type", .str e.eventType),
   ("tenant_id", .str (Uuid.text e.tenantId.int))]

/-- `EventEnvelope.body`: the keys sorted. The text is ASCII, so nothing is
left for `ensure_ascii` to escape. -/
def EventEnvelope.body (e : EventEnvelope) : List UInt8 :=
  Utf8.encode (JsonText.dumps (.obj e.fields))

-- ============================================================== from_body

/-- `bytes.decode("utf-8")`: bytes are valid when they encode a text. -/
def decodeUtf8 (body : List UInt8) : Option (List Char) :=
  let text := (Utf8.Decoder.start.feed body).2
  if Utf8.encode text = body then some text else none

def required : List String :=
  ["event_id", "tenant_id", "aggregate_type", "aggregate_id", "event_type",
    "aggregate_version"]

/-- `set(value) == required`. -/
def hasRequired (fields : List (List UInt16 × JsValue)) : Bool :=
  (required.all fun key => fields.any fun f => f.1 == jsString key.toList)
    && fields.all fun f => required.any fun key => f.1 == jsString key.toList

/-- `value[key]`. -/
def field (fields : List (List UInt16 × JsValue)) (key : String) : JsValue :=
  (PyJson.get fields key).getD .null

/-- `value["aggregate_version"]` as an `int` that is no `bool`. -/
def integerVersion (fields : List (List UInt16 × JsValue)) : Option Int :=
  match field fields "aggregate_version" with
  | .number (.integer n) => some n
  | _ => none

section

variable (py : Interpreter)

/-- `str` recurses into the value too deep. -/
def tooDeep (v : JsValue) : Bool := decide (py.reprLimit < PyJson.nesting v)

/-- `str(v)`, of a value that is not too deep. -/
def strText : JsValue → List Nat
  | .null => Uuid.codes "None"
  | .bool true => Uuid.codes "True"
  | .bool false => Uuid.codes "False"
  | .number (.integer n) => (JsonText.integer n).map Char.toNat
  | .number (.other literal) => py.floatText literal
  | .string s => PyJson.points s
  | v => py.containerText v

/-- `str(v)`. -/
def str (v : JsValue) : Except Raised (List Nat) := do
  raiseIf (tooDeep py v = true) .recursionError
  return strText py v

/-- `UUID(s)`. -/
def uuid (s : List Nat) : Except Raised UUID :=
  match Uuid.parse py.decimals s with
  | some n =>
      if h : n < 2 ^ 128 then .ok ⟨n, h⟩
      else .error (.valueError "event envelope fields are invalid")
  | none => .error (.valueError "event envelope fields are invalid")

/-- The text of a string's characters, if they are characters. -/
def charText (s : List Nat) : Option String :=
  if s.all (fun c => decide (c.isValidChar)) = true then
    some (String.ofList (s.map Char.ofNat))
  else none

/-- `__post_init__` of the decoded fields, which carry no route. The
grammar admits ASCII only, so a lone surrogate fails it. -/
def postInit (eventId tenantId : UUID) (aggregateType : List Nat) (aggregateId : UUID)
    (eventType : List Nat) (version : Int) : Except Raised EventEnvelope :=
  match charText aggregateType, charText eventType with
  | some aggregateType, some eventType =>
      if h : eventTypeValid aggregateType = true ∧ eventTypeValid eventType = true
          ∧ 1 ≤ version then
        .ok { eventId, tenantId, aggregateType, aggregateId, eventType
              aggregateVersion := version, routingKey := none
              aggregateTypeOk := h.1, eventTypeOk := h.2.1, versionOk := h.2.2
              routingKeyOk := fun _ hkey => by cases hkey }
      else .error (.valueError "event envelope fields are invalid")
  | _, _ => .error (.valueError "event envelope fields are invalid")

/-- The `cls(...)` call of `from_body`, argument by argument. A `TypeError`
or `ValueError` in it becomes the `ValueError` of its handler. -/
def construct (fields : List (List UInt16 × JsValue)) (version : Int) :
    Except Raised EventEnvelope := do
  let eventId ← uuid py (← str py (field fields "event_id"))
  let tenantId ← uuid py (← str py (field fields "tenant_id"))
  let aggregateType ← str py (field fields "aggregate_type")
  let aggregateId ← uuid py (← str py (field fields "aggregate_id"))
  let eventType ← str py (field fields "event_type")
  postInit eventId tenantId aggregateType aggregateId eventType version

/-- `EventEnvelope.from_body`. -/
def fromBody (body : List UInt8) : Except Raised EventEnvelope := do
  raiseIf (body = [] ∨ body.length > 4096)
    (.valueError "event envelope body is invalid")
  let text ← orRaise (decodeUtf8 body) (.valueError "event envelope body is invalid")
  match PyJson.loads py.recursionLimit text with
  | .error .recursion => .error .recursionError
  | .error _ => .error (.valueError "event envelope body is invalid")
  | .ok (.object fields) => do
      raiseIf (hasRequired fields = false)
        (.valueError "event envelope fields are invalid")
      -- raised outside of the handler that turns a TypeError around
      let version ← orRaise (integerVersion fields)
        (.typeError "aggregate_version is invalid")
      construct py fields version
  | .ok _ => .error (.valueError "event envelope fields are invalid")

end

-- ============================================================== consumers

/-- What a consumer does with a message once its body is decoded. -/
inductive Delivery
  | handled (e : EventEnvelope)
  /-- `message.reject(requeue=False)`. -/
  | rejected
  /-- `message.nack(requeue=True)`. -/
  | requeued

/-- The handlers of `_handle`, the same in both consumers: `ValueError` is
the one exception of `from_body` they do not retry. -/
def deliver (py : Interpreter) (body : List UInt8) : Delivery :=
  match fromBody py body with
  | .ok e => .handled e
  | .error (.valueError _) => .rejected
  | .error _ => .requeued

end Mosaic.Messaging
