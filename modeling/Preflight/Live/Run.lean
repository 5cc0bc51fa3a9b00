import Preflight.Config.Basic
import Preflight.Diagnostic.Basic
import Preflight.Live.Probe

/-!
# Probing a running application

The application is started, polled until it answers, and then sent the probes one after the other.
Whatever happens after the start, the server is terminated in the end.  Probing records warnings and
information, never an error.

The surroundings are a `Host`: whether the application starts, what each request is answered with,
and how the server ends.  What is done to them is recorded as a list of events.
-/

namespace Preflight

/-- Something done to the surroundings. -/
inductive Event where
  /-- The external parser was asked about a script. -/
  | parse (path : String)
  | launch (program : String) (args : List String)
  | get (url : String) (timeout : Nat)
  | post (url : String) (timeout : Nat) (payload : Json.Value)
  | terminate
  | wait (timeout : Nat)
  deriving Repr, Inhabited

/-- How the surroundings of a live probe behave. -/
structure Host where
  /-- The application starts, or why it does not. -/
  launch : Except String Unit
  /-- The reply to each request, counted from zero, or the reason why there is none. -/
  answer : Nat → Except String Reply
  /-- The server takes the order to end, or why it does not. -/
  terminate : Except String Unit
  /-- The server ends in time, or waiting for it fails. -/
  wait : Except String Bool

/-- How far a live probe got. -/
inductive LiveOutcome where
  | launchFailed
  | notReady
  | probed (passed failed : Nat)
  deriving DecidableEq, Repr, Inhabited

/-- What a live probe leaves behind. -/
structure LiveResult where
  outcome : LiveOutcome
  diagnostics : List Diagnostic
  events : List Event
  deriving Repr, Inhabited

namespace LiveSettings

/-- The address of a path on the server. -/
def url (s : LiveSettings) (path : String) : String :=
  String.ofList (s.baseUrl.toList.reverse.dropWhile (· == '/')).reverse ++ path

/-- How many polls are made from request `n` on, of at most `attempts`, and whether the last of
them got a reply. -/
def poll (answer : Nat → Except String Reply) (n : Nat) : Nat → Nat × Bool
  | 0 => (0, false)
  | attempts + 1 =>
    if (answer n).toBool then (1, true)
    else
      let (polls, ready) := poll answer (n + 1) attempts
      (polls + 1, ready)

/-- The request of a probe.  A post without a payload sends an empty object. -/
def request (s : LiveSettings) (p : Probe) : Event :=
  match p.method with
  | .get => .get (s.url p.path) s.requestTimeout
  | .post => .post (s.url p.path) s.requestTimeout (p.payload.getD (.object []))

/-- What is wrong with the answer to a probe, if anything is. -/
def failure? (s : LiveSettings) (p : Probe) : Except String Reply → Option String
  | .ok reply => p.problem? reply
  | .error reason =>
    some s!"{p.label} failed: {TransportError.message ⟨s.url p.path, reason⟩}"

/-- The diagnostic for a probe that had some failure or none. -/
def verdict (p : Probe) : Option String → Diagnostic
  | none => ⟨.info, s!"{p.label} responded as expected", some .liveProbe⟩
  | some problem => ⟨.warning, problem, some .liveProbe⟩

/-- Starts the application `app`, probes it, and ends it. -/
def run (s : LiveSettings) (host : Host) (probes : List Probe) (app : String) : LiveResult :=
  let launch := Event.launch s.program (s.args ++ [app])
  match host.launch with
  | .error _ =>
    ⟨.launchFailed,
      [⟨.warning, "Could not start Flask server - skipping live endpoint tests",
        some .liveProbe⟩],
      [launch]⟩
  | .ok () =>
    let ending := [Event.terminate, .wait s.shutdownTimeout]
    let (polls, ready) := poll host.answer 0 s.attempts
    let polling := List.replicate polls (Event.get (s.url s.readyPath) s.readyTimeout)
    if ready then
      let failures := (probes.zipIdx polls).map fun (p, n) => (p, s.failure? p (host.answer n))
      ⟨.probed (failures.countP (·.2.isNone)) (failures.countP (·.2.isSome)),
        ⟨.info, s!"Server started on {s.baseUrl}", some .liveProbe⟩ ::
          failures.map fun (p, failure) => verdict p failure,
        launch :: polling ++ probes.map s.request ++ ending⟩
    else
      ⟨.notReady,
        [⟨.warning, s!"Flask server not reachable at {s.baseUrl} after {s.attempts} attempts - " ++
            "skipping live endpoint tests", some .liveProbe⟩],
        launch :: polling ++ ending⟩

end LiveSettings

end Preflight
