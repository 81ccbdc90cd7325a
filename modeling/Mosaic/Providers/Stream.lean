/-
The text stream of the provider client (`DashScopeProvider.stream`,
app/providers/dashscope.py).

# The feed

A `Feed` is all that reaches the client of one POST: no connection, an
answer that is an error, or an answer with a body, as the lines httpx
splits it into, which ends regularly or breaks off. The generator is a
function of the feed: `streamItems` is the list of what it yields, and
the list ends with a `fail` item unless the generator returns normally.

# Decoding

`json.loads` and the wire model's validation of one data line are the
parameter `decode`; nothing here depends on what it accepts.
-/
import Mosaic.Lib.Checked
import Mosaic.Providers.Http

namespace Mosaic.Providers

open Lib

/-- `providers.ports.Usage`. -/
structure TokenUsage where
  promptTokens : Nat := 0
  completionTokens : Nat := 0
  totalTokens : Nat := 0
deriving Repr, DecidableEq

/-- `_WireUsage`. -/
structure WireUsage where
  promptTokens : Option Int
  completionTokens : Option Int
  totalTokens : Option Int
deriving Repr, DecidableEq

/-- `_StreamChoice`. -/
structure StreamChoice where
  content : Option String
  finishReason : Option String
deriving Repr, DecidableEq

/-- `_StreamResponse`. -/
structure StreamResponse where
  model : String
  choices : List StreamChoice
  usage : Option WireUsage
deriving Repr, DecidableEq

/-- `TextStreamChunk`. -/
structure TextStreamChunk where
  requestId : String
  model : String
  delta : String
  finishReason : Option String
  usage : Option TokenUsage
deriving Repr, DecidableEq

/-- What a call of the client raises: a `ProviderError`, or the
`ValueError` of a result's own check. -/
inductive CallFailure
  | provider (error : ProviderError)
  | value
deriving Repr, DecidableEq

inductive StreamItem
  | chunk (c : TextStreamChunk)
  | fail (f : CallFailure)
deriving Repr, DecidableEq

/-- What one POST delivers. -/
inductive Feed
  | connectError
  | transportError
  | answered (answer : Answer) (lines : List String) (broken : Bool)
deriving Repr, DecidableEq

/-- A token count of the wire: absent is zero, a negative one makes
`Usage` raise. -/
def tokenCount (n : Option Int) : Option Nat :=
  let n := n.getD 0
  if n < 0 then none else some n.toNat

/-- The usage a wire usage converts to. -/
def toUsage (u : WireUsage) : Option TokenUsage := do
  let promptTokens ← tokenCount u.promptTokens
  let completionTokens ← tokenCount u.completionTokens
  let totalTokens ← tokenCount u.totalTokens
  return { promptTokens, completionTokens, totalTokens }

/-- `_to_usage`; a negative count is a `ValueError`. -/
def usageOrRaise : Option WireUsage → Except CallFailure (Option TokenUsage)
  | none => return none
  | some w => do
      let u ← orRaise (toUsage w) .value
      return some u

/-- The payload of a `data:` line, if it is one. -/
def dataOf (line : String) : Option String :=
  if line.startsWith "data:" then
    some (PyStr.strip (String.ofList (line.toList.drop 5)))
  else none

section

variable (decode : String → Option StreamResponse) (model : String)

/-- A `yield` of the generator: the chunk and whether it finishes the
text. The request id and the usage are read here, and can raise. -/
def yieldChunk (requestId : Option String) (parsed : StreamResponse)
    (delta : String) (finish : Option String) :
    Except CallFailure (TextStreamChunk × Bool) := do
  let id ← orRaise requestId (.provider protocolError)
  let usage ← usageOrRaise parsed.usage
  return ({ requestId := id
            model := if parsed.model = "" then model else parsed.model
            delta, finishReason := finish, usage }, finish.isSome)

/-- What the generator makes of one decoded line. -/
def chunkOf (requestId : Option String) (sawUsage : Bool) (parsed : StreamResponse) :
    Except CallFailure (TextStreamChunk × Bool) := do
  raiseIf (parsed.model ≠ "" ∧ parsed.model ≠ model) (.provider protocolError)
  raiseIf (parsed.usage.isSome = true ∧ sawUsage = true) (.provider protocolError)
  match parsed.choices with
  | [] => do
      raiseIf (parsed.usage = none) (.provider protocolError)
      yieldChunk model requestId parsed "" none
  | choice :: _ =>
      yieldChunk model requestId parsed (choice.content.getD "") choice.finishReason

/-- The line loop of the generator. -/
def streamLines (requestId : Option String) (broken : Bool) :
    Bool → Bool → List String → List StreamItem
  | _, _, [] =>
      -- the body ended without `[DONE]`
      [.fail (.provider (if broken then submissionUnknown else protocolError))]
  | sawTerminal, sawUsage, line :: rest =>
      match dataOf line with
      | none => streamLines requestId broken sawTerminal sawUsage rest
      | some data =>
          if data = "[DONE]" then
            if sawTerminal = true ∧ sawUsage = true then []
            else [.fail (.provider protocolError)]
          else
            match decode data with
            | none => [.fail (.provider protocolError)]
            | some parsed =>
                match chunkOf model requestId sawUsage parsed with
                | .error f => [.fail f]
                | .ok (chunk, finished) =>
                    .chunk chunk :: streamLines requestId broken
                      (sawTerminal || finished) (sawUsage || parsed.usage.isSome) rest

/-- Everything the generator yields on a feed. -/
def streamItems : Feed → List StreamItem
  | .connectError => [.fail (.provider connectionError)]
  | .transportError => [.fail (.provider submissionUnknown)]
  | .answered answer lines broken =>
      if answer.isSuccess = false then [.fail (.provider (httpError answer true))]
      else streamLines decode model (requestIdOf answer.headers none) broken
        false false lines

end

end Mosaic.Providers
