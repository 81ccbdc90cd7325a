/-
The public contract of a generation request (app/contracts/generations.py)
and the payload acceptance stores.

`CreateGenerationRequest.admitted` is the contract: the field bounds and
patterns of the two models and the modality check. What the worker later
reads is not the request but its JSON dump (`modelDump`), in which the
fields that were not given are left out.
-/
import Mosaic.Lib.Json
import Mosaic.Providers.Ports

namespace Mosaic.Generation

open Lib Providers

-- ============================================================== contract

inductive Modality
  | text
  | image
  | video
  | audio
deriving Repr, DecidableEq

def Modality.toString : Modality → String
  | .text => "text"
  | .image => "image"
  | .video => "video"
  | .audio => "audio"

inductive Resolution
  | p720
  | p1080
deriving Repr, DecidableEq

def Resolution.toString : Resolution → String
  | .p720 => "720P"
  | .p1080 => "1080P"

inductive Ratio
  | square
  | wide
  | tall
  | landscape
  | portrait
deriving Repr, DecidableEq

def Ratio.toString : Ratio → String
  | .square => "1:1"
  | .wide => "16:9"
  | .tall => "9:16"
  | .landscape => "4:3"
  | .portrait => "3:4"

structure GenerationMessage where
  role : ChatRole
  content : String
deriving Repr, DecidableEq

structure GenerationInput where
  messages : Option (List GenerationMessage) := none
  prompt : Option String := none
  text : Option String := none
  languageType : Option String := none
  size : String := "512*512"
  count : Int := 1
  resolution : Resolution := .p720
  ratio : Ratio := .wide
  durationSeconds : Int := 2
deriving Repr, DecidableEq

structure CreateGenerationRequest where
  productModelId : String
  modality : Modality
  input : GenerationInput
  clientRequestId : String
deriving Repr, DecidableEq

/-- `min_length=1, max_length=max`. -/
def boundedLength (max : Nat) (s : String) : Bool :=
  1 ≤ PyStr.len s && PyStr.len s ≤ max

/-- `^[a-z0-9][a-z0-9-]{0,159}$`. -/
def isProductModelId (s : String) : Bool :=
  let alnum := fun c : Char => ('a' ≤ c && c ≤ 'z') || isAsciiDigit c
  match s.toList with
  | [] => false
  | c :: rest => alnum c && rest.length ≤ 159 && rest.all fun c => alnum c || c == '-'

def GenerationInput.admitted (i : GenerationInput) : Bool :=
  i.messages.all (fun ms => ms.length ≤ 128 && ms.all fun m => boundedLength 8000 m.content)
    && i.prompt.all (boundedLength 16000)
    && i.text.all (boundedLength 8000)
    && i.languageType.all (boundedLength 64)
    && (sizeMatch i.size).isSome
    && (1 ≤ i.count && i.count ≤ 6)
    && (2 ≤ i.durationSeconds && i.durationSeconds ≤ 15)

/-- `validate_modality_input`: `not value` is true of a missing and of an
empty one. -/
def CreateGenerationRequest.modalityInput (q : CreateGenerationRequest) : Bool :=
  let present := fun s : Option String => s.any (· != "")
  match q.modality with
  | .text => q.input.messages.any (fun ms => !ms.isEmpty) || present q.input.prompt
  | .image => present q.input.prompt
  | .video => present q.input.prompt
  | .audio => present q.input.text

def CreateGenerationRequest.admitted (q : CreateGenerationRequest) : Bool :=
  isProductModelId q.productModelId && q.input.admitted
    && boundedLength 255 q.clientRequestId && !PyStr.blank q.clientRequestId
    && q.modalityInput

-- =============================================================== payload

/-- A field that `exclude_none` leaves out when it is `None`. -/
def optionalField (key : String) (value : Option Json) : List (String × Json) :=
  match value with
  | none => []
  | some v => [(key, v)]

def GenerationMessage.dump (m : GenerationMessage) : Json :=
  .obj [("role", .str m.role.toString), ("content", .str m.content)]

def GenerationInput.dump (i : GenerationInput) : List (String × Json) :=
  optionalField "messages"
      (i.messages.map fun ms => .arr (ms.map GenerationMessage.dump))
    ++ optionalField "prompt" (i.prompt.map .str)
    ++ optionalField "text" (i.text.map .str)
    ++ optionalField "language_type" (i.languageType.map .str)
    ++ [("size", .str i.size), ("count", .int i.count),
        ("resolution", .str i.resolution.toString), ("ratio", .str i.ratio.toString),
        ("duration_seconds", .int i.durationSeconds)]

/-- `request.model_dump(mode="json", exclude_none=True)`, after
`validate_client_request_id` has stripped the id. -/
def CreateGenerationRequest.modelDump (q : CreateGenerationRequest) :
    List (String × Json) :=
  [("product_model_id", .str q.productModelId), ("modality", .str q.modality.toString),
   ("input", .obj q.input.dump), ("client_request_id", .str (PyStr.strip q.clientRequestId))]

end Mosaic.Generation
