/-
What the provider client makes of an HTTP exchange
(app/providers/errors.py and the transport part of dashscope.py).

An exchange either fails before an answer arrives, in one of the two
ways httpx distinguishes, or yields a status and headers. Everything the
callers later decide on an error is in `ProviderError`: its code, its
status and its request id.
-/
import Mosaic.Lib.PyStr

namespace Mosaic.Providers

open Lib

/-- `ProviderError`, without the fields no caller reads. -/
structure ProviderError where
  code : String
  statusCode : Option Nat := none
  retryable : Bool := false
  requestId : Option String := none
deriving Repr, DecidableEq

/-- `_safe_request_id`. -/
def safeRequestId (value : Option String) : Option String :=
  match value with
  | none => none
  | some s =>
      let cleaned := (s.toList.filter fun c =>
        c.isAlphanum || c == '.' || c == '_' || c == ':' || c == '-').take 128
      if cleaned = [] then none else some (String.ofList cleaned)

/-- `ProviderProtocolError`. -/
def protocolError : ProviderError := { code := "invalid_provider_response" }

/-- The headers of an answer the client reads. -/
structure Headers where
  dashscopeRequestId : Option String := none
  requestId : Option String := none
deriving Repr, DecidableEq

/-- Python's `a or b` of two optional strings. -/
def orElse (a b : Option String) : Option String :=
  match a with
  | some s => if s = "" then b else some s
  | none => b

/-- `_request_id`. -/
def requestIdOf (h : Headers) (payloadId : Option String) : Option String :=
  match orElse h.dashscopeRequestId (orElse h.requestId payloadId) with
  | none => none
  | some value =>
      let v := PyStr.strip value
      if v = "" ∨ PyStr.lower v = "unknown" then none else some v

/-- An answer: its status and headers. -/
structure Answer where
  status : Nat
  headers : Headers
deriving Repr, DecidableEq

/-- `response.is_success`. -/
def Answer.isSuccess (a : Answer) : Bool := 200 ≤ a.status && a.status ≤ 299

/-- `_ensure_success` on an answer that is not a success. -/
def httpError (a : Answer) (chargeable : Bool) : ProviderError :=
  { code := "provider_http_error", statusCode := some a.status
    retryable := a.status == 429
      || (!chargeable && (a.status == 408 || 500 ≤ a.status))
    requestId := safeRequestId (requestIdOf a.headers none) }

/-- `httpx.ConnectError` and `ConnectTimeout` of a chargeable call. -/
def connectionError : ProviderError :=
  { code := "provider_connection_error", retryable := true }

/-- Any other `httpx.HTTPError` of a chargeable call. -/
def submissionUnknown : ProviderError := { code := "provider_submission_unknown" }

/-- Any `httpx.HTTPError` of a status poll. -/
def pollTransportError : ProviderError :=
  { code := "provider_poll_transport_error", retryable := true }

end Mosaic.Providers
