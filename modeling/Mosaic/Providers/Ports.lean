/-
The typed requests of the provider ports (app/providers/ports.py).

Each request validates itself when it is built: its `__post_init__`
raises a `ValueError`, whose text is the error here. A request therefore
carries the fact that its checks passed.
-/
import Mosaic.Lib.Checked
import Mosaic.Lib.PyStr

namespace Mosaic.Providers

open Lib

-- =============================================================== checks

/-- `_require_text`. -/
def requireText (value name : String) (maxLength : Nat) : Except String Unit := do
  raiseIf (PyStr.blank value = true) (name ++ " must not be blank")
  raiseIf (PyStr.len value > maxLength) (name ++ " exceeds the maximum length")

/-- `_require_model`. -/
def requireModel (value : String) : Except String Unit := requireText value "model" 160

def isAsciiDigit (c : Char) : Bool := '0' ≤ c && c ≤ '9'

/-- `int` of a run of ASCII digits. -/
def digitsValue (digits : List Char) : Nat :=
  digits.foldl (fun n c => 10 * n + (c.toNat - '0'.toNat)) 0

/-- The two numbers of `[0-9]{3,4}\*[0-9]{3,4}`, matched in full. -/
def sizeMatch (value : String) : Option (Nat × Nat) :=
  let width := value.toList.takeWhile isAsciiDigit
  match value.toList.dropWhile isAsciiDigit with
  | '*' :: height =>
      if 3 ≤ width.length ∧ width.length ≤ 4 ∧ height.all isAsciiDigit = true
          ∧ 3 ≤ height.length ∧ height.length ≤ 4 then
        some (digitsValue width, digitsValue height)
      else none
  | _ => none

/-- `_require_size`. -/
def requireSize (value : String) : Except String Unit := do
  let (width, height) ← orRaise (sizeMatch value)
    "image size must use WIDTH*HEIGHT notation"
  raiseIf (width < 512 ∨ height < 512 ∨ width > 2048 ∨ height > 2048)
    "image dimensions must each be between 512 and 2048 pixels"

-- ============================================================= requests

inductive ChatRole
  | system
  | user
  | assistant
  | tool
deriving Repr, DecidableEq

/-- The role a string names; `ChatMessage` refuses any other. -/
def ChatRole.ofString (s : String) : Option ChatRole :=
  if s = "system" then some .system
  else if s = "user" then some .user
  else if s = "assistant" then some .assistant
  else if s = "tool" then some .tool
  else none

def ChatRole.toString : ChatRole → String
  | .system => "system"
  | .user => "user"
  | .assistant => "assistant"
  | .tool => "tool"

def chatMessageCheck (content : String) : Except String Unit :=
  requireText content "chat message content" 8000

structure ChatMessage where
  role : ChatRole
  content : String
  valid : chatMessageCheck content = .ok ()

/-- `ChatMessage(role=…, content=…)`. -/
def ChatMessage.build (role content : String) : Except String ChatMessage := do
  let role ← orRaise (ChatRole.ofString role) "unsupported chat message role"
  certify (chatMessageCheck content) fun h => ⟨role, content, h⟩

def textCompletionCheck (model : String) (messages : List ChatMessage) :
    Except String Unit := do
  requireModel model
  raiseIf (messages.isEmpty = true) "at least one chat message is required"

/-- `TextCompletionRequest`, without the two options the executor leaves
unset. -/
structure TextCompletionRequest where
  model : String
  messages : List ChatMessage
  valid : textCompletionCheck model messages = .ok ()

def TextCompletionRequest.build (model : String) (messages : List ChatMessage) :
    Except String TextCompletionRequest :=
  certify (textCompletionCheck model messages) fun h => ⟨model, messages, h⟩

def imageGenerationCheck (model prompt size : String) (count : Int) :
    Except String Unit := do
  requireModel model
  requireText prompt "image prompt" 16000
  requireSize size
  raiseIf (¬(1 ≤ count ∧ count ≤ 6)) "image count must be between 1 and 6"

structure ImageGenerationRequest where
  model : String
  prompt : String
  size : String
  count : Int
  valid : imageGenerationCheck model prompt size count = .ok ()

def ImageGenerationRequest.build (model prompt size : String) (count : Int) :
    Except String ImageGenerationRequest :=
  certify (imageGenerationCheck model prompt size count) fun h =>
    ⟨model, prompt, size, count, h⟩

def videoGenerationCheck (model prompt resolution ratio : String)
    (durationSeconds : Int) : Except String Unit := do
  requireModel model
  requireText prompt "video prompt" 16000
  raiseIf (resolution ∉ ["720P", "1080P"])
    "Wan 2.7 video resolution must be 720P or 1080P"
  raiseIf (ratio ∉ ["1:1", "16:9", "9:16", "4:3", "3:4"]) "unsupported video ratio"
  raiseIf (¬(2 ≤ durationSeconds ∧ durationSeconds ≤ 15))
    "video duration must be between 2 and 15 seconds"

structure VideoGenerationRequest where
  model : String
  prompt : String
  resolution : String
  ratio : String
  durationSeconds : Int
  valid : videoGenerationCheck model prompt resolution ratio durationSeconds = .ok ()

def VideoGenerationRequest.build (model prompt resolution ratio : String)
    (durationSeconds : Int) : Except String VideoGenerationRequest :=
  certify (videoGenerationCheck model prompt resolution ratio durationSeconds) fun h =>
    ⟨model, prompt, resolution, ratio, durationSeconds, h⟩

def audioGenerationCheck (model text voice languageType : String) :
    Except String Unit := do
  requireModel model
  requireText text "audio text" 8000
  requireText voice "audio voice" 160
  requireText languageType "audio language" 64

structure AudioGenerationRequest where
  model : String
  text : String
  voice : String
  languageType : String
  valid : audioGenerationCheck model text voice languageType = .ok ()

def AudioGenerationRequest.build (model text voice languageType : String) :
    Except String AudioGenerationRequest :=
  certify (audioGenerationCheck model text voice languageType) fun h =>
    ⟨model, text, voice, languageType, h⟩

end Mosaic.Providers
