/-
The prompt of an execution (`_completion_request` of
app/conversations/worker.py) and the contract a user's message has passed
before it is submitted (app/contracts/conversation.py).

# Options

The temperature and the token limit come from the routing config of the
deployment, or from the worker's defaults. No function here computes with
a float: whether one lies between 0 and 2 is the parameter `floatFits`.
-/
import Mosaic.Chat.System
import Mosaic.Providers.Ports

namespace Mosaic.Chat

open Lib Providers

-- ============================================================== contract

/-- `SendMessageRequest`, for its `content`. -/
def sendMessageRequest (content : String) : Except String String := do
  raiseIf (PyStr.len content < 1) "String should have at least 1 character"
  raiseIf (PyStr.len content > 64000) "String should have at most 64000 characters"
  raiseIf (PyStr.blank content = true) "content must not be blank"
  return content

/-- A submit comes with a request the API has validated. -/
def Op.validated : Op → Prop
  | .submit _ _ _ _ _ content _ _ => sendMessageRequest content = .ok content
  | _ => True

-- ================================================================ prompt

/-- The value of a persisted role. -/
def MessageRole.value : MessageRole → String
  | .system => "system"
  | .user => "user"
  | .assistant => "assistant"
  | .tool => "tool"

/-- The loop of `_completion_request`: every message of the history but
the one being answered into, blank ones skipped. A persisted role is one
of the four the loop accepts. -/
def promptMessages (messageId : Nat) : List HistoryMessage →
    Except String (List ChatMessage)
  | [] => return []
  | item :: history =>
      if item.messageId = messageId then promptMessages messageId history
      else if PyStr.blank item.content = true then promptMessages messageId history
      else do
        let message ← ChatMessage.build item.role.value item.content
        let messages ← promptMessages messageId history
        return message :: messages

/-- The messages of `_completion_request`. -/
def completionMessages (e : Execution) : Except String (List ChatMessage) :=
  promptMessages e.messageId e.history

-- =============================================================== options

/-- A number `float` accepts. -/
inductive Temperature
  | int (n : Int)
  | float (spelling : String)
deriving Repr, DecidableEq

/-- The first integer whose nearest double would be `2 ^ 1024`. -/
def floatOverflow : Int := 2 ^ 1024 - 2 ^ 970

/-- The value of a routing config under a key, or a fallback. -/
def configValue (config : List (String × Json)) (key : String) (fallback : Json) : Json :=
  match config.find? fun f => f.1 == key with
  | some f => f.2
  | none => fallback

/-- `_config_float`. -/
def configFloat (config : List (String × Json)) (key : String) (fallback : Json) :
    Except String (Option Temperature) :=
  match configValue config key fallback with
  | .null => return none
  | .int n => do
      raiseIf (floatOverflow ≤ n ∨ n ≤ -floatOverflow) "int too large to convert to float"
      return some (.int n)
  | .float spelling => return some (.float spelling)
  | _ => .error (key ++ " must be numeric")

/-- `_config_int`. -/
def configInt (config : List (String × Json)) (key : String) (fallback : Json) :
    Except String (Option Int) :=
  match configValue config key fallback with
  | .null => return none
  | .int n => return some n
  | _ => .error (key ++ " must be an integer")

/-- `0 <= temperature <= 2`. -/
def Temperature.fits (floatFits : String → Bool) : Temperature → Bool
  | .int n => 0 ≤ n && n ≤ 2
  | .float spelling => floatFits spelling

-- =============================================================== request

/-- The defaults of `ChatWorkerDependencies`. -/
structure CompletionDefaults where
  temperature : Option Temperature
  maxCompletionTokens : Option Int

def CompletionDefaults.temperatureJson (d : CompletionDefaults) : Json :=
  match d.temperature with
  | none => .null
  | some (.int n) => .int n
  | some (.float spelling) => .float spelling

def CompletionDefaults.tokensJson (d : CompletionDefaults) : Json :=
  match d.maxCompletionTokens with
  | none => .null
  | some n => .int n

/-- A `TextCompletionRequest` with its options. -/
structure CompletionRequest where
  request : TextCompletionRequest
  temperature : Option Temperature
  maxCompletionTokens : Option Int

section

variable (floatFits : String → Bool) (defaults : CompletionDefaults)

/-- The two options of a request, as the deployment sets them. -/
def completionOptions (config : List (String × Json)) :
    Except String (Option Temperature × Option Int) := do
  let temperature ← configFloat config "temperature" defaults.temperatureJson
  let maxCompletionTokens ← configInt config "max_completion_tokens" defaults.tokensJson
  return (temperature, maxCompletionTokens)

/-- `_completion_request`; the checks of the request come last, its own
before those of the options. -/
def completionRequest (e : Execution) : Except String CompletionRequest := do
  let messages ← completionMessages e
  let (temperature, maxCompletionTokens) ←
    completionOptions defaults e.deployment.routingConfig
  let request ← TextCompletionRequest.build e.deployment.providerModelId messages
  raiseIf (temperature.any (fun t => !t.fits floatFits) = true)
    "temperature must be between 0 and 2"
  raiseIf (maxCompletionTokens.any (fun n => decide (n < 1)) = true)
    "max_completion_tokens must be positive"
  return { request, temperature, maxCompletionTokens }

/-- What a deployment has to bring for a request: a model, and a routing
config whose options have the right types and lie in their ranges. -/
structure ValidDeployment (d : ChatDeployment) : Prop where
  model : requireModel d.providerModelId = .ok ()
  options : ∃ temperature maxCompletionTokens,
    completionOptions defaults d.routingConfig = .ok (temperature, maxCompletionTokens)
      ∧ temperature.any (fun t => !t.fits floatFits) = false
      ∧ maxCompletionTokens.any (fun n => decide (n < 1)) = false

end

end Mosaic.Chat
