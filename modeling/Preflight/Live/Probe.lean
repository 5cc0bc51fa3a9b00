import Preflight.Live.Http

/-!
# Endpoint probes

A probe is one request to the application with an expectation on its reply.
-/

namespace Preflight

open Json

/-- What a reply has to look like. -/
inductive Expectation where
  /-- The field is there. -/
  | field (name : String)
  /-- The field is there and has the value. -/
  | fieldEquals (name : String) (value : Value)
  deriving Repr, Inhabited

structure Probe where
  method : Method
  path : String
  payload : Option Value
  expected : Expectation
  /-- Any status but 200 is a problem. -/
  requireOk : Bool
  deriving Repr, Inhabited

namespace Probe

/-- The probe in messages. -/
def label (p : Probe) : String := s!"{p.method.key} {p.path}"

/-- The problem with a reply, or `none` if it is as expected. -/
def problem? (p : Probe) (reply : Reply) : Option String :=
  if p.requireOk ∧ reply.status ≠ 200 then some s!"{p.label} returned {reply.status}"
  else
    match p.expected with
    | .field name =>
      match reply.body.bind (·.get? name) with
      | some _ => none
      | none => some s!"{p.label} response missing '{name}' field"
    | .fieldEquals name want =>
      match reply.body.bind (·.get? name) with
      | some got =>
        if got.same want then none
        else some s!"{p.label} expected '{name}' = {want.compact}, got {got.compact}"
      | none => some s!"{p.label} response missing '{name}' field"

/-- The payload that asks for a tool on the local machine. -/
def toolPayload (tool : String) : Value :=
  .object [("computer", .string "localhost"), ("tool", .string tool)]

/-- The probes of a tool server.  A tool that does not exist may be refused with any status. -/
def stock : List Probe :=
  [⟨.get, "/api/tools", none, .field "tools", true⟩,
    ⟨.post, "/api/run", some (toolPayload "SystemInfo"), .field "success", true⟩,
    ⟨.post, "/api/run", some (toolPayload "NonExistentTool"),
      .fieldEquals "success" (.bool false), false⟩]

end Probe

end Preflight
