import Preflight.Json.Writer
import Preflight.Json.Reader
import Preflight.Encoding.Utf8

/-!
# Requests and replies

The little of HTTP that probing needs: requests with a method and an optional JSON payload, and
replies with a status and, if the body was one, a JSON value.
-/

namespace Preflight

inductive Method where
  | get
  | post
  deriving DecidableEq, Repr, Inhabited

namespace Method

/-- The method in a request line. -/
def key : Method → String
  | get => "GET"
  | post => "POST"

/-- The method of a given key. -/
def ofKey? (s : String) : Option Method := [get, post].find? (·.key == s)

end Method

/-- A reply of the server. -/
structure Reply where
  status : Nat
  /-- The body, if it is JSON. -/
  body : Option Json.Value
  deriving Repr, Inhabited

/-- The body of a reply as JSON, if its bytes are such. -/
def Reply.jsonBody? (bytes : List UInt8) : Option Json.Value :=
  (Utf8.decode bytes).bind Json.read

/-- A request that got no reply. -/
structure TransportError where
  url : String
  reason : String
  deriving DecidableEq, Repr, Inhabited

/-- The failure in words. -/
def TransportError.message (e : TransportError) : String :=
  s!"request to {e.url} failed: {e.reason}"

end Preflight
