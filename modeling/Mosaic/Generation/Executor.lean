/-
How the executor builds the provider call of a job
(app/generations/executor.py), from the stored payload to the typed
request.

`providerCall` is `execute` up to its first await: it reads the JSON the
acceptance stored, fills in defaults and builds the request of the
modality. Everything it raises, it raises before the provider is called.
-/
import Mosaic.Generation.Contract
import Mosaic.Providers.Http

namespace Mosaic.Generation

open Lib Providers

-- =============================================================== errors

/-- What `execute` can raise; `other` is any exception of the database,
the artifact storage, a result type or a lease guard. -/
inductive ExecuteError
  | provider (error : ProviderError)
  | infrastructure (code : String)
  | value (message : String)
  | type (message : String)
  | other
deriving Repr, DecidableEq

/-- A `ValueError` of a port. -/
def ofPort {α : Type} (x : Except String α) : Except ExecuteError α :=
  x.mapError .value

-- ================================================================ ports

structure AudioVoiceBinding where
  targetModel : String
  providerVoiceId : String
deriving Repr, DecidableEq

/-- `ProviderPorts`: which clients are configured, and the route. -/
structure ProviderPorts where
  text : Bool
  image : Bool
  video : Bool
  audio : Bool
  providerModelId : Option String
  audioVoice : Option AudioVoiceBinding
deriving Repr, DecidableEq

/-- What the executor reads of a job, and whether it was given a
submission recorder. -/
structure Job where
  modality : Modality
  productModelId : String
  requestPayload : List (String × Json)
  submissionRecorder : Bool

/-- The call the executor is about to make. -/
inductive ProviderCall
  | generate (request : ImageGenerationRequest)
  | submitVideo (request : VideoGenerationRequest)
  | synthesize (request : AudioGenerationRequest)
  | complete (request : TextCompletionRequest)

-- ================================================================ input

/-- `_input_values`. -/
def inputValues (payload : List (String × Json)) :
    Except ExecuteError (List (String × Json)) :=
  orRaise (Json.field payload "input").obj? (.type "generation input is invalid")

/-- `_required_string`. -/
def requiredString (value : Json) (name : String) : Except ExecuteError String := do
  let s ← orRaise value.str? (.value (name ++ " must not be blank"))
  raiseIf (PyStr.blank s = true) (.value (name ++ " must not be blank"))
  return s

/-- `_string_or_default`. -/
def stringOrDefault (value : Json) (default : String) : String :=
  match value.str? with
  | some s => if PyStr.blank s then default else s
  | none => default

/-- `_bounded_int`. -/
def boundedInt (value : Json) (default minimum maximum : Int) :
    Except ExecuteError Int :=
  match value with
  | .null => return default
  | value => do
      let n ← orRaise value.int? (.value "generation integer parameter is out of range")
      raiseIf (¬(minimum ≤ n ∧ n ≤ maximum))
        (.value "generation integer parameter is out of range")
      return n

/-- `providers.provider_model_id or job.product_model_id`. -/
def modelOf (ports : ProviderPorts) (job : Job) : String :=
  match ports.providerModelId with
  | some s => if s = "" then job.productModelId else s
  | none => job.productModelId

-- =============================================================== requests

/-- `_image`, up to `provider.generate`. -/
def imageCall (ports : ProviderPorts) (model : String) (values : List (String × Json)) :
    Except ExecuteError ProviderCall := do
  raiseIf (ports.image = false) (.infrastructure "GENERATION_PROVIDER_NOT_CONFIGURED")
  let prompt ← requiredString (Json.field values "prompt") "prompt"
  let count ← boundedInt (Json.field values "count") 1 1 6
  let request ← ofPort (ImageGenerationRequest.build model prompt
    (stringOrDefault (Json.field values "size") "512*512") count)
  return .generate request

/-- `_video`, up to `provider.submit_video`. -/
def videoCall (ports : ProviderPorts) (model : String) (values : List (String × Json))
    (recorder : Bool) : Except ExecuteError ProviderCall := do
  raiseIf (ports.video = false) (.infrastructure "GENERATION_PROVIDER_NOT_CONFIGURED")
  raiseIf (recorder = false)
    (.infrastructure "GENERATION_SUBMISSION_RECORDER_UNAVAILABLE")
  let prompt ← requiredString (Json.field values "prompt") "prompt"
  let durationSeconds ← boundedInt (Json.field values "duration_seconds") 2 2 15
  let request ← ofPort (VideoGenerationRequest.build model prompt
    (stringOrDefault (Json.field values "resolution") "720P")
    (stringOrDefault (Json.field values "ratio") "16:9") durationSeconds)
  return .submitVideo request

/-- `_audio`, up to `provider.synthesize`. -/
def audioCall (ports : ProviderPorts) (model : String) (values : List (String × Json)) :
    Except ExecuteError ProviderCall := do
  raiseIf (ports.audio = false) (.infrastructure "GENERATION_PROVIDER_NOT_CONFIGURED")
  let voice ← orRaise (ports.audioVoice.filter fun v => v.targetModel == model)
    (.infrastructure "GENERATION_PROVIDER_ROUTE_UNAVAILABLE")
  let text ← requiredString (Json.field values "text") "text"
  let request ← ofPort (AudioGenerationRequest.build model text voice.providerVoiceId
    (stringOrDefault (Json.field values "language_type") "Chinese"))
  return .synthesize request

/-- `str(item.get("role", "user"))`, as far as `ChatMessage` can tell:
nothing but a string spells a role. -/
def roleText (item : List (String × Json)) : String :=
  match item.find? fun f => f.1 == "role" with
  | none => "user"
  | some f => f.2.str?.getD ""

/-- One item of the `messages` list. -/
def messageOf (item : Json) : Except ExecuteError ChatMessage := do
  let fields ← orRaise item.obj? (.type "invalid generation message")
  let content ← requiredString (Json.field fields "content") "message content"
  ofPort (ChatMessage.build (roleText fields) content)

/-- The `messages` list, if there is one. -/
def messagesOf (value : Json) : Except ExecuteError (List ChatMessage) :=
  match value with
  | .arr items => items.mapM messageOf
  | _ => return []

/-- The messages of a text job: the given ones, else the prompt. -/
def textMessages (values : List (String × Json)) :
    Except ExecuteError (List ChatMessage) := do
  let given ← messagesOf (Json.field values "messages")
  match given with
  | [] => do
      let prompt ← requiredString (Json.field values "prompt") "prompt"
      let message ← ofPort (ChatMessage.build "user" prompt)
      return [message]
  | given => return given

/-- `_text`, up to `provider.complete`. -/
def textCall (ports : ProviderPorts) (model : String) (values : List (String × Json)) :
    Except ExecuteError ProviderCall := do
  raiseIf (ports.text = false) (.infrastructure "GENERATION_PROVIDER_NOT_CONFIGURED")
  let messages ← textMessages values
  let request ← ofPort (TextCompletionRequest.build model messages)
  return .complete request

/-- `execute`, up to the provider call. -/
def providerCall (ports : ProviderPorts) (job : Job) :
    Except ExecuteError ProviderCall := do
  let values ← inputValues job.requestPayload
  let model := modelOf ports job
  raiseIf (PyStr.blank model = true)
    (.infrastructure "GENERATION_PROVIDER_MODEL_UNAVAILABLE")
  match job.modality with
  | .image => imageCall ports model values
  | .video => videoCall ports model values job.submissionRecorder
  | .audio => audioCall ports model values
  | .text => textCall ports model values

/-- The job an accepted request becomes. -/
def jobOf (q : CreateGenerationRequest) : Job :=
  { modality := q.modality, productModelId := q.productModelId
    requestPayload := q.modelDump, submissionRecorder := true }

end Mosaic.Generation
