import Preflight.Live.Run
import Preflight.Proofs.Diagnostics
import Mathlib.Data.List.Forall2

/-!
# What a live probe does

`Trace` lists the three ways in which a live probe can go, each with what is
done to the surroundings, in order, and what is recorded: the application does
not start, it starts and answers no poll, or it answers a poll and is sent
every probe once.  Whenever it has started it is terminated and waited for, and
that is the last thing done.

* `failure?_eq_none_iff` says which answers a probe takes: `Probe.Passes`.
* `poll_cases` says how far polling goes: to the first reply, or through all
  attempts.

`run_trace` is the result: every live probe goes in one of these ways.
-/

namespace Preflight

/-! ## What a probe takes -/

namespace Expectation

/-- The field that is looked up. -/
def fieldName : Expectation → String
  | field name | fieldEquals name _ => name

/-- The value that the field may have. -/
def Admits : Expectation → Json.Value → Prop
  | field _, _ => True
  | fieldEquals _ want, value => value.same want = true

end Expectation

/-- The probe got a reply, with status 200 if it requires that, and the body
is an object that has the field with a value that is expected. -/
def Probe.Passes (p : Probe) (answer : Except String Reply) : Prop :=
  ∃ reply fields value, answer = .ok reply ∧
    (p.requireOk = true → reply.status = 200) ∧
    reply.body = some (.object fields) ∧
    fields.lookup p.expected.fieldName = some value ∧ p.expected.Admits value

theorem Json.Value.get?_eq_some_iff {name : String} {body value : Json.Value} :
    body.get? name = some value ↔
      ∃ fields, body = .object fields ∧ fields.lookup name = some value := by
  cases body <;> simp [get?]

theorem Reply.bind_get?_eq_some_iff {reply : Reply} {name : String}
    {value : Json.Value} :
    reply.body.bind (·.get? name) = some value ↔
      ∃ fields, reply.body = some (.object fields) ∧
        fields.lookup name = some value := by
  simp only [Option.bind_eq_some_iff, Json.Value.get?_eq_some_iff]
  constructor
  · rintro ⟨_, hbody, fields, rfl, hfield⟩
    exact ⟨fields, hbody, hfield⟩
  · rintro ⟨fields, hbody, hfield⟩
    exact ⟨_, hbody, fields, rfl, hfield⟩

/-- Nothing is wrong with a reply exactly if its status may be what it is and
its body has the field as expected. -/
theorem Probe.problem?_eq_none_iff {p : Probe} {reply : Reply} :
    p.problem? reply = none ↔
      (p.requireOk = true → reply.status = 200) ∧
        ∃ value, reply.body.bind (·.get? p.expected.fieldName) = some value ∧
          p.expected.Admits value := by
  rw [problem?]
  by_cases hstatus : p.requireOk = true ∧ reply.status ≠ 200
  · simp [hstatus]
  have hok : p.requireOk = true → reply.status = 200 := by
    simpa using hstatus
  rw [if_neg hstatus, and_iff_right hok]
  cases p.expected with
  | field name =>
    simp only [Expectation.fieldName, Expectation.Admits]
    cases reply.body.bind (·.get? name) <;> simp
  | fieldEquals name want =>
    simp only [Expectation.fieldName, Expectation.Admits]
    cases reply.body.bind (·.get? name) with
    | none => simp
    | some got =>
      by_cases hsame : got.same want = true
      · simp [hsame]
      · simp [hsame]

theorem LiveSettings.failure?_eq_none_iff {s : LiveSettings} {p : Probe}
    {answer : Except String Reply} :
    s.failure? p answer = none ↔ p.Passes answer := by
  cases answer with
  | error reason => simp [failure?, Probe.Passes]
  | ok reply =>
    rw [failure?, Probe.problem?_eq_none_iff, Probe.Passes]
    simp only [Reply.bind_get?_eq_some_iff]
    constructor
    · rintro ⟨hok, value, ⟨fields, hbody, hfield⟩, hvalue⟩
      exact ⟨reply, fields, value, rfl, hok, hbody, hfield, hvalue⟩
    · rintro ⟨_, fields, value, hreply, hok, hbody, hfield, hvalue⟩
      cases hreply
      exact ⟨hok, value, ⟨fields, hbody, hfield⟩, hvalue⟩

/-! ## Polling -/

/-- The request with this number gets a reply, whatever its status. -/
def Host.Replies (host : Host) (n : Nat) : Prop :=
  ∃ reply, host.answer n = .ok reply

theorem Host.replies_iff {host : Host} {n : Nat} :
    host.Replies n ↔ (host.answer n).toBool = true := by
  rw [Replies]
  cases host.answer n <;> simp [Except.toBool]

namespace LiveSettings

/-- Polling from request `n` on goes to the first reply, or through all
attempts if there is none. -/
theorem poll_cases (host : Host) (n attempts : Nat) :
    (∃ k < attempts, poll host.answer n attempts = (k + 1, true) ∧
        host.Replies (n + k) ∧ ∀ m < k, ¬host.Replies (n + m)) ∨
      poll host.answer n attempts = (attempts, false) ∧
        ∀ m < attempts, ¬host.Replies (n + m) := by
  induction attempts generalizing n with
  | zero => exact .inr ⟨rfl, fun m hm => absurd hm (Nat.not_lt_zero m)⟩
  | succ attempts ih =>
    rw [poll]
    by_cases hreply : host.Replies n
    · refine .inl ⟨0, Nat.zero_lt_succ attempts, ?_, hreply, ?_⟩
      · rw [if_pos (Host.replies_iff.mp hreply)]
      · exact fun m hm => absurd hm (Nat.not_lt_zero m)
    rw [if_neg (Host.replies_iff.not.mp hreply)]
    -- No earlier request got a reply, this one included.
    have hbefore {k : Nat} (h : ∀ m < k, ¬host.Replies (n + 1 + m)) :
        ∀ m < k + 1, ¬host.Replies (n + m) := by
      intro m hm
      cases m with
      | zero => exact hreply
      | succ m =>
        rw [Nat.add_comm m, ← Nat.add_assoc]
        exact h m (Nat.lt_of_succ_lt_succ hm)
    rcases ih (n + 1) with ⟨k, hk, hpoll, hfound, hnone⟩ | ⟨hpoll, hnone⟩
    · refine .inl ⟨k + 1, Nat.succ_lt_succ hk, ?_, ?_, hbefore hnone⟩
      · rw [hpoll]
      · rw [Nat.add_comm k, ← Nat.add_assoc]
        exact hfound
    · refine .inr ⟨?_, hbefore hnone⟩
      rw [hpoll]

/-! ## The three ways -/

/-- What is done first: the application is started. -/
def launching (s : LiveSettings) (app : String) : Event :=
  .launch s.program (s.args ++ [app])

/-- Some polls. -/
def polling (s : LiveSettings) (n : Nat) : List Event :=
  List.replicate n (.get (s.url s.readyPath) s.readyTimeout)

/-- What is done last: the server is ended. -/
def ending (s : LiveSettings) : List Event :=
  [.terminate, .wait s.shutdownTimeout]

/-- A diagnostic of the live probe with some severity. -/
def Says (severity : Severity) (d : Diagnostic) : Prop :=
  d.severity = severity ∧ d.ruleId = some .liveProbe

/-- What is said of a probe on what it got: information if it passes, and a
warning if it does not. -/
def Judges (host : Host) (request : Probe × Nat) (d : Diagnostic) : Prop :=
  (request.1.Passes (host.answer request.2) ∧ Says .info d) ∨
    (¬request.1.Passes (host.answer request.2) ∧ Says .warning d)

/-- The ways in which a live probe can go. -/
inductive Trace (s : LiveSettings) (host : Host) (probes : List Probe)
    (app : String) : LiveResult → Prop where
  /-- The application does not start, and nothing more is done. -/
  | launchFailed (reason : String) (hlaunch : host.launch = .error reason)
      (warning : Diagnostic) (hwarning : Says .warning warning) :
      Trace s host probes app ⟨.launchFailed, [warning], [s.launching app]⟩
  /-- No poll gets a reply, and no probe is sent. -/
  | notReady (hlaunch : host.launch = .ok ())
      (hnone : ∀ n < s.attempts, ¬host.Replies n)
      (warning : Diagnostic) (hwarning : Says .warning warning) :
      Trace s host probes app
        ⟨.notReady, [warning],
          s.launching app :: s.polling s.attempts ++ s.ending⟩
  /-- The poll behind the first `n` gets the first reply, and every probe is
  sent. -/
  | probed (hlaunch : host.launch = .ok ()) (n : Nat) (hn : n < s.attempts)
      (hreply : host.Replies n) (hfirst : ∀ m < n, ¬host.Replies m)
      (started : Diagnostic) (hstarted : Says .info started)
      (verdicts : List Diagnostic)
      (hverdicts :
        List.Forall₂ (Judges host) (probes.zipIdx (n + 1)) verdicts)
      (passed failed : Nat)
      (hpassed : passed = verdicts.countP (·.severity = .info))
      (hfailed : failed = verdicts.countP (·.severity = .warning))
      (hall : passed + failed = probes.length) :
      Trace s host probes app
        ⟨.probed passed failed, started :: verdicts,
          s.launching app :: s.polling (n + 1) ++ probes.map s.request ++
            s.ending⟩

theorem judges_verdict (s : LiveSettings) (host : Host)
    (request : Probe × Nat) :
    Judges host request
      (verdict request.1 (s.failure? request.1 (host.answer request.2))) := by
  rw [Judges, ← failure?_eq_none_iff (s := s)]
  cases s.failure? request.1 (host.answer request.2) with
  | none => exact .inl ⟨rfl, rfl, rfl⟩
  | some problem => exact .inr ⟨nofun, rfl, rfl⟩

/-- As many verdicts inform as there are probes without a failure, and as many
warn as there are others. -/
theorem countP_severity_verdict (failures : List (Probe × Option String)) :
    let verdicts := failures.map fun (p, failure) => verdict p failure
    failures.countP (·.2.isNone) = verdicts.countP (·.severity = .info) ∧
      failures.countP (·.2.isSome) =
        verdicts.countP (·.severity = .warning) := by
  intro verdicts
  constructor
  · rw [List.countP_map]
    congr 1
    funext ⟨p, failure⟩
    cases failure <;> rfl
  · rw [List.countP_map]
    congr 1
    funext ⟨p, failure⟩
    cases failure <;> rfl

/-- Each probe either has a failure or has none. -/
theorem countP_isNone_add_countP_isSome
    (failures : List (Probe × Option String)) :
    failures.countP (·.2.isNone) + failures.countP (·.2.isSome) =
      failures.length := by
  rw [List.length_eq_countP_add_countP (fun f => f.2.isNone)]
  congr 2
  funext f
  cases f.2 <;> rfl

theorem trace_run (s : LiveSettings) (host : Host) (probes : List Probe)
    (app : String) : s.Trace host probes app (s.run host probes app) := by
  rw [run]
  cases hlaunch : host.launch with
  | error reason => exact .launchFailed reason hlaunch _ ⟨rfl, rfl⟩
  | ok started =>
    rcases poll_cases host 0 s.attempts with
      ⟨n, hn, hpoll, hreply, hfirst⟩ | ⟨hpoll, hnone⟩
    · rw [Nat.zero_add] at hreply
      simp only [Nat.zero_add] at hfirst
      simp only [hpoll, if_true]
      let requests := probes.zipIdx (n + 1)
      let failures := requests.map fun request =>
        (request.1, s.failure? request.1 (host.answer request.2))
      obtain ⟨hpassed, hfailed⟩ := countP_severity_verdict failures
      refine .probed hlaunch n hn hreply hfirst _ ⟨rfl, rfl⟩ _ ?_ _ _ hpassed
        hfailed ?_
      · rw [List.map_map, List.forall₂_map_right_iff, List.forall₂_same]
        exact fun request _ => judges_verdict s host request
      · calc
          failures.countP (·.2.isNone) + failures.countP (·.2.isSome)
          _ = failures.length := countP_isNone_add_countP_isSome failures
          _ = probes.length := by
            rw [List.length_map, List.length_zipIdx]
    · simp only [Nat.zero_add] at hnone
      simp only [hpoll]
      exact .notReady hlaunch hnone _ ⟨rfl, rfl⟩

end LiveSettings

end Preflight
