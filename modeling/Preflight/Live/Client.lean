import Preflight.Live.Http
import Preflight.Live.Url
import Preflight.Json.Writer

/-!
# Requests on the wire

How a request is written for the server, and what the client makes of the server's conduct.
-/

namespace Preflight

/-- A request as the server sees it. -/
structure WireRequest where
  /-- The request line. -/
  line : String
  contentType : Option String
  body : String
  deriving DecidableEq, Repr, Inhabited

/-- Writes a request.  Only posts have a payload. -/
def WireRequest.of (method : Method) (resource : Resource) (payload : Json.Value) : WireRequest :=
  let line := s!"{method.key} {String.ofList resource.sent} HTTP/1.1"
  match method with
  | .get => ⟨line, none, ""⟩
  | .post => ⟨line, some "application/json", payload.compact⟩

/-- What the server does about a request. -/
inductive Conduct where
  | answer (status : Nat) (body : List UInt8)
  /-- It closes the connection. -/
  | close
  /-- It lets the client wait in vain. -/
  | hang
  deriving DecidableEq, Repr, Inhabited

namespace Conduct

/-- Answers of these kinds never have a body. -/
def isBodiless (status : Nat) : Bool := status == 101 || status == 204 || status == 304

/-- The bytes of the body that come with a status, or `none` if it is not the status of a final
answer. -/
def body? (status : Nat) (bytes : List UInt8) : Option (List UInt8) :=
  if isBodiless status then some []
  else if 200 ≤ status ∧ status ≤ 999 then some bytes
  else none

/-- The failure of a request to an address on a server. -/
def failure (server address : String) (resource : Resource) : TransportError :=
  ⟨server ++ address,
    s!"error sending request for url ({server}{String.ofList resource.shown})"⟩

/-- The reply that the client gets, or its failure. -/
def reply (server address : String) : Conduct → Except TransportError Reply
  | answer status bytes =>
    match body? status bytes with
    | some body => .ok ⟨status, Reply.jsonBody? body⟩
    | none => .error (failure server address (.ofText address))
  | close | hang => .error (failure server address (.ofText address))

end Conduct

end Preflight
