/-
The calls of the provider client that return one answer
(`DashScopeProvider.complete`, `generate`, `synthesize`, `submit_video`
and `get_video_task`, app/providers/dashscope.py).

# Exchanges

An `Exchange` is what one HTTP call comes to: no connection, a transport
error, or an answer with a body. `post` and `get` turn it into a parsed
body or a `ProviderError`, and this is where an HTTP status gets into the
error. Everything the calls raise afterwards carries no status.

# Decoding

A body is what `response.json()` and the wire model's validation make of
the bytes; `none` is a body they refuse. Whether a URL is one of the
provider's asset hosts is the parameter `asset`, which returns the URL
in its https form.
-/
import Mosaic.Providers.Stream

namespace Mosaic.Providers

open Lib

-- ============================================================= exchange

inductive Exchange (β : Type)
  | connectError
  | transportError
  | answered (answer : Answer) (body : Option β)

variable {β : Type}

/-- `_ensure_success` and `_parse`. -/
def readAnswer (chargeable : Bool) (answer : Answer) (body : Option β) :
    Except CallFailure (Answer × β) := do
  raiseIf (answer.isSuccess = false) (.provider (httpError answer chargeable))
  let parsed ← orRaise body (.provider protocolError)
  return (answer, parsed)

/-- `_post`, with `_parse`. -/
def post : Exchange β → Except CallFailure (Answer × β)
  | .connectError => .error (.provider connectionError)
  | .transportError => .error (.provider submissionUnknown)
  | .answered answer body => readAnswer true answer body

/-- `_get`, with `_parse`. -/
def get : Exchange β → Except CallFailure (Answer × β)
  | .connectError => .error (.provider pollTransportError)
  | .transportError => .error (.provider pollTransportError)
  | .answered answer body => readAnswer false answer body

/-- `_required_request_id`. -/
def requiredRequestId (answer : Answer) (payloadId : Option String) :
    Except CallFailure String :=
  orRaise (requestIdOf answer.headers payloadId) (.provider protocolError)

/-- A count of the wire; a negative one makes the usage type raise. -/
def countOrRaise : Option Int → Except CallFailure (Option Nat)
  | none => return none
  | some n => do
      raiseIf (n < 0) .value
      return some n.toNat

section

variable (asset : String → Option String)

/-- `_validate_asset_url`. -/
def validateAssetUrl (url : String) : Except CallFailure String :=
  orRaise (asset url) (.provider protocolError)

-- ================================================================= text

/-- `_TextResponse`, with the contents of its choices. -/
structure TextResponse where
  model : String
  choices : List String
  usage : Option WireUsage

/-- `TextCompletionResult`, without the fields the executor drops. -/
structure TextCompletionResult where
  requestId : String
  usage : Option TokenUsage
deriving Repr, DecidableEq

/-- `complete`. -/
def completeText (model : String) (x : Exchange TextResponse) :
    Except CallFailure TextCompletionResult := do
  let (answer, parsed) ← post x
  raiseIf (parsed.choices = []) (.provider protocolError)
  raiseIf (parsed.model ≠ model) (.provider protocolError)
  let requestId ← requiredRequestId answer none
  let usage ← usageOrRaise parsed.usage
  return { requestId, usage }

-- ================================================================ image

/-- `_ImageContent`. -/
structure ImageContent where
  image : Option String
  b64Json : Option String

/-- `_ImageUsageWire`. -/
structure ImageUsageWire where
  imageCount : Option Int
  outputImageCount : Option Int

/-- `_ImageResponse`, with the contents of all its choices. -/
structure ImageResponse where
  contents : List ImageContent
  requestId : Option String
  usage : Option ImageUsageWire
  outputUsage : Option ImageUsageWire

inductive ImageArtifact
  | remote (url : String)
  | dataBase64 (data : String)
deriving Repr, DecidableEq

/-- `ImageGenerationResult`; `imageCount` is its usage. -/
structure ImageGenerationResult where
  requestId : String
  images : List ImageArtifact
  imageCount : Option Nat
deriving Repr, DecidableEq

/-- The artifact of one content, if it has one. -/
def imageArtifact (c : ImageContent) : Except CallFailure (Option ImageArtifact) :=
  match orElse c.image none, orElse c.b64Json none with
  | some url, _ => do
      let remote ← validateAssetUrl asset url
      return some (.remote remote)
  | none, some data => do
      raiseIf (PyStr.blank data = true) .value
      return some (.dataBase64 data)
  | none, none => return none

/-- `generate`. -/
def generate (x : Exchange ImageResponse) : Except CallFailure ImageGenerationResult := do
  let (answer, parsed) ← post x
  let found ← parsed.contents.mapM (imageArtifact asset)
  let images := found.filterMap id
  raiseIf (images = []) (.provider protocolError)
  let requestId ← requiredRequestId answer parsed.requestId
  let imageCount ← countOrRaise ((parsed.usage <|> parsed.outputUsage).bind fun u =>
    u.outputImageCount <|> u.imageCount)
  return { requestId, images, imageCount }

-- ================================================================ audio

/-- `_AudioResponse`; the usages are their `characters`. -/
structure AudioResponse where
  url : String
  requestId : Option String
  usage : Option (Option Int)
  outputUsage : Option (Option Int)

/-- `AudioGenerationResult`; `characters` is its usage. -/
structure AudioGenerationResult where
  requestId : String
  audio : String
  characters : Option Nat
deriving Repr, DecidableEq

/-- `synthesize`. -/
def synthesize (x : Exchange AudioResponse) : Except CallFailure AudioGenerationResult := do
  let (answer, parsed) ← post x
  let requestId ← requiredRequestId answer parsed.requestId
  let audio ← validateAssetUrl asset parsed.url
  let characters ← countOrRaise (parsed.usage <|> parsed.outputUsage).join
  return { requestId, audio, characters }

-- ================================================================ video

/-- `_TASK_ID_RE`: `^[A-Za-z0-9_-]{1,200}$`. -/
def isTaskId (s : String) : Bool :=
  1 ≤ PyStr.len s && PyStr.len s ≤ 200
    && s.toList.all fun c => c.isAlphanum || c == '_' || c == '-'

/-- `submit_video`; the body is its task id. -/
def submitVideo (x : Exchange String) : Except CallFailure String := do
  let (_, taskId) ← post x
  raiseIf (isTaskId taskId = false) (.provider protocolError)
  return taskId

inductive VideoTaskStatus
  | pending
  | running
  | succeeded
  | failed
  | canceled
  | unknown
deriving Repr, DecidableEq

/-- `VideoTaskStatus(value)`. -/
def VideoTaskStatus.ofString (s : String) : Option VideoTaskStatus :=
  if s = "PENDING" then some .pending
  else if s = "RUNNING" then some .running
  else if s = "SUCCEEDED" then some .succeeded
  else if s = "FAILED" then some .failed
  else if s = "CANCELED" then some .canceled
  else if s = "UNKNOWN" then some .unknown
  else none

/-- The aliases of `_normalise_video_status`. -/
def VideoTaskStatus.alias (s : String) : Option VideoTaskStatus :=
  if s = "SUCCESS" then some .succeeded
  else if s = "SUCCEEDED" then some .succeeded
  else if s = "CANCELLED" then some .canceled
  else if s = "CANCELED" then some .canceled
  else none

/-- `_normalise_video_status`. The default of `aliases.get` is an
argument: it is evaluated, and raises, before the alias is looked up. -/
def normaliseVideoStatus (value : String) : Except CallFailure VideoTaskStatus := do
  let normalised := PyStr.upper (PyStr.strip value)
  let status ← orRaise (VideoTaskStatus.ofString normalised) (.provider protocolError)
  return (VideoTaskStatus.alias normalised).getD status

/-- The usage fields of `_VideoUsageWire` and `_VideoTaskOutput`. The
duration is the first of the three given, as `int` reads it, `some none`
when it is a float `int` refuses; `described` says that a ratio or a
resolution is there. -/
structure VideoUsageWire where
  duration : Option (Option Int)
  videoCount : Option Int
  described : Bool

/-- `VideoUsage`, without the fields nobody reads. -/
structure VideoUsage where
  durationSeconds : Option Nat
  videoCount : Option Nat
deriving Repr, DecidableEq

/-- `_to_video_usage` and `_to_video_output_usage`. -/
def toVideoUsage (w : VideoUsageWire) : Except CallFailure (Option VideoUsage) :=
  if w.duration = none ∧ w.videoCount = none ∧ w.described = false then return none
  else do
    raiseIf (w.duration = some none) .value
    let durationSeconds ← countOrRaise w.duration.join
    let videoCount ← countOrRaise w.videoCount
    return some { durationSeconds, videoCount }

/-- `_VideoTaskResponse`. -/
structure VideoTaskResponse where
  taskStatus : String
  videoUrl : Option String
  requestId : Option String
  usage : Option VideoUsageWire
  output : VideoUsageWire

/-- `VideoTaskResult`. -/
structure VideoTaskResult where
  status : VideoTaskStatus
  video : Option String
  requestId : Option String
  usage : Option VideoUsage
deriving Repr, DecidableEq

/-- The asset of a task, if it names one. -/
def taskVideo : Option String → Except CallFailure (Option String)
  | none => return none
  | some url => do
      let video ← validateAssetUrl asset url
      return some video

/-- The usage of a task: its own, or else that of its output. -/
def taskUsage (parsed : VideoTaskResponse) : Except CallFailure (Option VideoUsage) := do
  let usage ← (parsed.usage.map toVideoUsage).getD (return none)
  match usage with
  | some usage => return some usage
  | none => toVideoUsage parsed.output

/-- `get_video_task`; its callers hold a task id that passed
`isTaskId`. -/
def getVideoTask (x : Exchange VideoTaskResponse) :
    Except CallFailure VideoTaskResult := do
  let (answer, parsed) ← get x
  let status ← normaliseVideoStatus parsed.taskStatus
  let video ← taskVideo asset parsed.videoUrl
  raiseIf (status = .succeeded ∧ video = none) (.provider protocolError)
  let usage ← taskUsage parsed
  return { status, video, requestId := requestIdOf answer.headers parsed.requestId, usage }

end

end Mosaic.Providers
