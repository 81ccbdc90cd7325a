/-
The executor from the provider call on (app/generations/executor.py),
and what its exceptions mean to the worker (`_submission_is_uncertain`,
worker.py).

`execute` and `recover_video` await several things in a row: the provider
call, the recording of its ids, the polls of a video task, the transfer
of the artifacts. Each is a function of what comes back, and the worker
model steps through them.
-/
import Mosaic.Generation.Repository
import Mosaic.Providers.Client

namespace Mosaic.Generation

open Lib Providers

-- =============================================================== errors

/-- The exception a failed client call surfaces as. -/
def ofCall {α : Type} (x : Except CallFailure α) : Except ExecuteError α :=
  x.mapError fun f => match f with
    | .provider e => .provider e
    | .value => .other

/-- The exception of a task that ended without a video. -/
def taskFailed : ExecuteError := .infrastructure "GENERATION_PROVIDER_TASK_FAILED"

/-- The `provider_timeout` of `wait_for_video`. -/
def providerTimeout : ExecuteError :=
  .provider { code := "provider_timeout", retryable := true }

/-- `_submission_is_uncertain`. -/
def submissionIsUncertain : ExecuteError → Bool
  | .provider e => e.statusCode.all (500 ≤ ·)
  | .infrastructure code => code ≠ "GENERATION_PROVIDER_TASK_FAILED"
  | .value _ => true
  | .type _ => true
  | .other => true

-- ============================================================= delivery

/-- What the provider delivered, with what the executor still needs of
the request. -/
inductive Delivery
  | image (result : ImageGenerationResult)
  | video (taskId : String) (durationSeconds : Int) (result : VideoTaskResult)
  | audio (text : String) (result : AudioGenerationResult)
  | text (result : TextCompletionResult)

/-- `result.request_id`. -/
def Delivery.requestId : Delivery → Option String
  | .image r => some r.requestId
  | .video _ _ r => r.requestId
  | .audio _ r => some r.requestId
  | .text r => some r.requestId

/-- How many artifacts are transferred. -/
def Delivery.artifactCount : Delivery → Nat
  | .image r => r.images.length
  | .video _ _ _ => 1
  | .audio _ _ => 1
  | .text _ => 0

/-- `sum(size_bytes)`, as `GenerationUsage` takes it. -/
def storageBytes (stored : List StoredArtifact) : Except ExecuteError Nat := do
  let total := (stored.map (·.sizeBytes)).sum
  raiseIf (total < 0) (.value "generation usage values must be non-negative integers")
  return total.toNat

/-- The usage of a video of `duration` seconds. -/
def videoUsage (durationSeconds : Int) (r : VideoTaskResult) (bytes : Nat) :
    Billing.BillingUsage :=
  let duration := ((r.usage.bind (·.durationSeconds)).map Int.ofNat).getD durationSeconds
  let seconds := (max duration 0).toNat
  let count := (r.usage.bind (·.videoCount)).getD 1
  { videoSeconds := seconds, videoDurationMs := seconds * 1000, storageBytes := bytes
    billableUnits := seconds * max count 1 }

/-- The measures of a delivery, once its artifacts are stored. -/
def Delivery.usage (d : Delivery) (artifacts bytes : Nat) : Billing.BillingUsage :=
  match d with
  | .image r =>
      let count := max (r.imageCount.getD artifacts) artifacts
      { imageCount := count, storageBytes := bytes, billableUnits := count }
  | .video _ durationSeconds r => videoUsage durationSeconds r bytes
  | .audio spoken r =>
      let characters := max (r.characters.getD (PyStr.len spoken)) (PyStr.len spoken)
      { characterCount := characters, storageBytes := bytes, billableUnits := characters }
  | .text r =>
      let usage := r.usage.getD {}
      { inputTokens := usage.promptTokens, outputTokens := usage.completionTokens
        billableUnits := usage.totalTokens }

/-- The `GenerationExecutionResult` of a delivery. -/
def Delivery.result (d : Delivery) (stored : List StoredArtifact) :
    Except ExecuteError GenerationExecutionResult := do
  let bytes ← storageBytes stored
  return { artifacts := stored.map fun a => ⟨"output", a⟩
           providerRequestId := d.requestId
           providerTaskId := match d with
             | .video taskId _ _ => some taskId
             | _ => none
           usage := d.usage stored.length bytes }

/-- The transfers of a delivery, given what storage makes of each. -/
def Delivery.store (d : Delivery) (storage : Nat → Option StoredArtifact) :
    Except ExecuteError (List StoredArtifact) :=
  (List.range d.artifactCount).mapM fun i => orRaise (storage i) .other

-- ================================================================ calls

/-- What the four provider calls would be answered with. -/
structure Answers where
  text : Exchange TextResponse
  image : Exchange ImageResponse
  audio : Exchange AudioResponse
  video : Exchange String

/-- What a provider call comes to: the product, or a task to wait for. -/
inductive Submission
  | delivered (d : Delivery)
  | task (taskId : String) (durationSeconds : Int)

section

variable (asset : String → Option String)

/-- The provider call of `execute`. -/
def submit (x : Answers) : ProviderCall → Except ExecuteError Submission
  | .generate _ => do
      let r ← ofCall (generate asset x.image)
      return .delivered (.image r)
  | .submitVideo request => do
      let taskId ← ofCall (submitVideo x.video)
      return .task taskId request.durationSeconds
  | .synthesize request => do
      let r ← ofCall (synthesize asset x.audio)
      return .delivered (.audio request.text r)
  | .complete request => do
      let r ← ofCall (completeText request.model x.text)
      return .delivered (.text r)

/-- One round of `wait_for_video`, and what `_video` makes of its end:
a delivery, or `none` for another round. -/
def pollVideo (taskId : String) (durationSeconds : Int) (expired : Bool)
    (x : Exchange VideoTaskResponse) : Except ExecuteError (Option Delivery) := do
  let r ← ofCall (getVideoTask asset x)
  if r.status = .pending ∨ r.status = .running then do
    raiseIf (expired = true) providerTimeout
    return none
  else do
    raiseIf (r.status ≠ .succeeded ∨ r.video = none) taskFailed
    return some (.video taskId durationSeconds r)

/-- `recover_video`: the result, or `none` while the task is not over. -/
def recoverVideo (configured : Bool) (r : GenerationRecord)
    (x : Exchange VideoTaskResponse) (storage : Nat → Option StoredArtifact) :
    Except ExecuteError (Option GenerationExecutionResult) := do
  raiseIf (r.job.modality ≠ .video) (.infrastructure "GENERATION_RECONCILIATION_UNSUPPORTED")
  let taskId ← orRaise r.job.providerTaskId
    (.infrastructure "GENERATION_RECONCILIATION_UNSUPPORTED")
  raiseIf (configured = false) (.infrastructure "GENERATION_PROVIDER_NOT_CONFIGURED")
  raiseIf (isTaskId taskId = false) (.value "invalid video task id")
  let task ← ofCall (getVideoTask asset x)
  if task.status = .pending ∨ task.status = .running then return none
  else do
    raiseIf (task.status ≠ .succeeded ∨ task.video = none) taskFailed
    let artifact ← orRaise (storage 0) .other
    let values ← inputValues r.job.requestPayload
    let requested ← boundedInt (Json.field values "duration_seconds") 2 2 15
    let d : Delivery := .video taskId requested task
    let result ← d.result [artifact]
    return some result

end

end Mosaic.Generation
