import Preflight.Proofs.Run.Stages

/-!
# Schedules of a run

`verify` takes the four steps once and in order.  A schedule may take them in
any order and as often as it likes: as long as it holds the steps of `verify`
in an order in which each finds its turn, it ends in the same report and has
done the same to the surroundings.

The proof is a simulation.  In surroundings that last, a run only ever has
four histories, one for each `Progress`, and a step moves it from one to the
next or leaves it alone (`follow_ofProgress`).  Progress never goes back, and more
steps never make less of it (`foldl_next_le`), so a schedule gets as far as
the steps of `verify` that it holds.
-/

namespace Preflight

open Verification (Step)

/-! ## Progress -/

/-- How far a run in lasting surroundings has come. -/
inductive Progress where
  | fresh
  | loaded
  | evaluated
  /-- The parser or the probe has run. -/
  | checked
  deriving DecidableEq

namespace Progress

def rank : Progress → Nat
  | fresh => 0
  | loaded => 1
  | evaluated => 2
  | checked => 3

instance : LE Progress := ⟨fun p q => p.rank ≤ q.rank⟩

theorem le_def {p q : Progress} : p ≤ q ↔ p.rank ≤ q.rank := Iff.rfl

/-- The progress after a step, where the parser and the probe are wanted or
not. -/
def next (parser probe : Bool) : Progress → Step → Progress
  | fresh, .load => loaded
  | loaded, .runRules => evaluated
  | evaluated, .checkSyntax => if parser then checked else evaluated
  | evaluated, .probeLive => if probe then checked else evaluated
  | p, _ => p

/-- No step takes progress back. -/
theorem le_next (parser probe : Bool) (p : Progress) (step : Step) :
    p ≤ next parser probe p step := by
  rw [le_def]
  cases p <;> cases step <;> cases parser <;> cases probe <;> decide

/-- A step makes the most of progress that has been made before. -/
theorem next_mono (parser probe : Bool) {p q : Progress} (h : p ≤ q)
    (step : Step) : next parser probe p step ≤ next parser probe q step := by
  rw [le_def] at h ⊢
  cases p <;> cases q <;> cases step <;> cases parser <;> cases probe <;>
    revert h <;> decide

/-- More steps never make less progress. -/
theorem foldl_next_le (parser probe : Bool) {few many : List Step}
    (h : few.Sublist many) {p q : Progress} (hpq : p ≤ q) :
    few.foldl (next parser probe) p ≤ many.foldl (next parser probe) q := by
  induction h generalizing p q with
  | slnil => exact hpq
  | cons step _ ih => exact ih (Nat.le_trans hpq (le_next parser probe q step))
  | cons_cons step _ ih => exact ih (next_mono parser probe hpq step)

theorem le_antisymm {p q : Progress} (h : p ≤ q) (h' : q ≤ p) : p = q := by
  rw [le_def] at h h'
  cases p <;> cases q <;> revert h h' <;> decide

/-- The most progress that there can be. -/
def last (parser probe : Bool) : Progress :=
  if parser || probe then checked else evaluated

theorem next_le_last (parser probe : Bool) {p : Progress}
    (h : p ≤ last parser probe) (step : Step) :
    next parser probe p step ≤ last parser probe := by
  rw [le_def] at h ⊢
  cases p <;> cases step <;> cases parser <;> cases probe <;> revert h <;> decide

theorem foldl_next_le_last (parser probe : Bool) (steps : List Step) {p : Progress}
    (h : p ≤ last parser probe) :
    steps.foldl (next parser probe) p ≤ last parser probe := by
  induction steps generalizing p with
  | nil => exact h
  | cons step steps ih => exact ih (next_le_last parser probe h step)

/-- The steps of a whole run, with the checks in either order, get as far as
there is to go, whatever other steps stand between them. -/
theorem foldl_next_eq_last (parser probe : Bool) {steps : List Step}
    (hsteps : List.Sublist [.load, .runRules, .checkSyntax, .probeLive] steps ∨
      List.Sublist [.load, .runRules, .probeLive, .checkSyntax] steps) :
    steps.foldl (next parser probe) fresh = last parser probe := by
  refine le_antisymm (foldl_next_le_last parser probe steps (Nat.zero_le _)) ?_
  rcases hsteps with hsteps | hsteps
  · have hle := foldl_next_le parser probe hsteps (Nat.le_refl (rank fresh))
    cases parser <;> cases probe <;> exact hle
  · have hle := foldl_next_le parser probe hsteps (Nat.le_refl (rank fresh))
    cases parser <;> cases probe <;> exact hle

end Progress

namespace History

/-! ## A step is taken once -/

/-- A step that has been called is idle from then on. -/
theorem idle_take (h : History) (call : Call) :
    (h.take call).state.Idle call.step := by
  have hmoves := h.take_moves call
  generalize h.take call = next at hmoves ⊢
  obtain ⟨step, around⟩ := call
  cases hmoves with
  | idle hidle => exact hidle
  | reject | accept => exact fun hstage => nomatch hstage
  | evaluate => exact .inl fun hstage => nomatch hstage
  | parse => exact fun hcan => nomatch hcan.1
  | probe =>
    rintro ⟨hstage | hstage, _⟩
    · cases hstage
    · cases hstage

/-- The parser has had its turn when the application is probed. -/
theorem idle_checkSyntax_take {h : History} (hidle : h.state.Idle .checkSyntax)
    (around : Surroundings) :
    (h.take ⟨.probeLive, around⟩).state.Idle .checkSyntax := by
  have hmoves := h.take_moves ⟨.probeLive, around⟩
  generalize h.take ⟨.probeLive, around⟩ = next at hmoves ⊢
  cases hmoves with
  | idle => exact hidle
  | probe => exact fun hcan => nomatch hcan.1

section Idle

variable {request : Request} {config : Config} {calls : List Call} {h : History}

/-- A script is read at most once. -/
theorem Stands.idle_load (hstands : Stands request config calls h)
    (hload : .load ∈ calls.map (·.step)) : h.state.Idle .load := by
  cases hstands with
  | fresh hread => exact absurd hread (load_mem_iff.mp hload)
  | failed | loaded => exact fun hstage => nomatch hstage
  | evaluated _ _ _ _ _ _ _ _ hpast =>
    cases hpast <;> exact fun hstage => nomatch hstage

/-- The rules wait for a load and run at most once. -/
theorem Stands.idle_runRules (hstands : Stands request config calls h)
    (hcalls : .load ∉ calls.map (·.step) ∨ RulesCalled calls) :
    h.state.Idle .runRules := by
  cases hstands with
  | fresh | failed => exact .inl fun hstage => nomatch hstage
  | loaded script text hread hrules =>
    rcases hcalls with hload | hcalled
    · exact absurd (load_mem_of_read hread) hload
    · exact absurd hcalled hrules
  | evaluated _ _ _ _ _ _ _ _ hpast =>
    cases hpast <;> exact .inl fun hstage => nomatch hstage

/-- The parser and the probe wait for the rules. -/
theorem Stands.idle_checks (hstands : Stands request config calls h)
    (hrules : ¬RulesCalled calls) :
    h.state.Idle .checkSyntax ∧ h.state.Idle .probeLive := by
  cases hstands with
  | fresh | failed | loaded =>
    refine ⟨fun hcan => (nomatch hcan.1), ?_⟩
    rintro ⟨hstage | hstage, _⟩
    · cases hstage
    · cases hstage
  | evaluated _ _ _ _ _ _ _ hcalled => exact absurd hcalled hrules

/-- No call changes what is wanted. -/
theorem Stands.wanted_eq (hstands : Stands request config calls h) :
    h.state.wantsParser = (Verification.start request config).wantsParser ∧
      h.state.wantsProbe = (Verification.start request config).wantsProbe := by
  cases hstands <;> exact ⟨rfl, rfl⟩

end Idle

/-! ## Histories in lasting surroundings -/

section Lasting

-- The host is scripted: it may answer by what has been done to it before.
variable (files : FileSystem) (parser : Parser) (hosts : List Event → Host)

/-- One step more. -/
def follow (h : History) (step : Step) : History :=
  h.take ⟨step, files, parser, hosts h.events⟩

/-- The history of some steps, one after the other. -/
def scheduled (request : Request) (config : Config) (steps : List Step) :
    History :=
  steps.foldl (follow files parser hosts) (start request config)

variable (request : Request) (config : Config)

/-- The history of a run that has come so far. -/
def ofProgress : Progress → History
  | .fresh => scheduled files parser hosts request config []
  | .loaded => scheduled files parser hosts request config [.load]
  | .evaluated => scheduled files parser hosts request config [.load, .runRules]
  | .checked => scheduled files parser hosts request config
      [.load, .runRules, .checkSyntax, .probeLive]

variable {files parser hosts request config}

theorem follow_of_idle {h : History} {step : Step}
    (hidle : h.state.Idle step) : follow files parser hosts h step = h :=
  take_of_idle hidle

theorem idle_follow (h : History) (step : Step) :
    (follow files parser hosts h step).state.Idle step :=
  idle_take h _

private theorem stands_foldl_follow (steps : List Step) :
    ∀ (calls : List Call) (h : History), Stands request config calls h →
      ∃ more, more.map (·.step) = steps ∧
        Stands request config (calls ++ more)
          (steps.foldl (follow files parser hosts) h) := by
  induction steps with
  | nil => exact fun calls h hstands => ⟨[], rfl, by rwa [List.append_nil]⟩
  | cons step steps ih =>
    intro calls h hstands
    obtain ⟨more, hmore, hafter⟩ := ih _ _
      (hstands.take ⟨step, files, parser, hosts h.events⟩)
    refine ⟨⟨step, files, parser, hosts h.events⟩ :: more, ?_, ?_⟩
    · rw [List.map_cons, hmore]
    · rwa [List.append_cons]

/-- A schedule is a case of calls. -/
theorem stands_scheduled (steps : List Step) :
    ∃ calls, calls.map (·.step) = steps ∧ Stands request config calls
      (scheduled files parser hosts request config steps) := by
  obtain ⟨calls, hcalls, hstands⟩ :=
    stands_foldl_follow steps [] (start request config) (.fresh rfl)
  exact ⟨calls, hcalls, hstands⟩

/-! ## Steps that have no turn -/

theorem idle_load_scheduled {steps : List Step} (hload : .load ∈ steps) :
    (scheduled files parser hosts request config steps).state.Idle .load := by
  obtain ⟨calls, rfl, hstands⟩ := stands_scheduled steps
  exact hstands.idle_load hload

theorem idle_runRules_scheduled {steps : List Step}
    (hsteps : .load ∉ steps ∨ List.Sublist [.load, .runRules] steps) :
    (scheduled files parser hosts request config steps).state.Idle .runRules := by
  obtain ⟨calls, rfl, hstands⟩ := stands_scheduled steps
  exact hstands.idle_runRules hsteps

theorem idle_checks_scheduled {steps : List Step}
    (hrules : ¬List.Sublist [.load, .runRules] steps) :
    (scheduled files parser hosts request config steps).state.Idle .checkSyntax ∧
      (scheduled files parser hosts request config steps).state.Idle
        .probeLive := by
  obtain ⟨calls, rfl, hstands⟩ := stands_scheduled steps
  exact hstands.idle_checks hrules

/-- A parser that is not wanted is idle throughout. -/
theorem idle_checkSyntax_of_not_wanted (steps : List Step)
    (hwants : (Verification.start request config).wantsParser = false) :
    (scheduled files parser hosts request config steps).state.Idle .checkSyntax := by
  obtain ⟨calls, _, hstands⟩ := stands_scheduled steps
  rintro ⟨_, hparser⟩
  rw [hstands.wanted_eq.1, hwants] at hparser
  cases hparser

/-- A probe that is not wanted is idle throughout. -/
theorem idle_probeLive_of_not_wanted (steps : List Step)
    (hwants : (Verification.start request config).wantsProbe = false) :
    (scheduled files parser hosts request config steps).state.Idle .probeLive := by
  obtain ⟨calls, _, hstands⟩ := stands_scheduled steps
  rintro ⟨_, hprobe⟩
  rw [hstands.wanted_eq.2, hwants] at hprobe
  cases hprobe

/-- Once both checks have been called after the rules, nothing moves. -/
theorem idle_of_checked (step : Step) :
    (ofProgress files parser hosts request config .checked).state.Idle step := by
  cases step with
  | load => exact idle_load_scheduled (by decide)
  | runRules => exact idle_runRules_scheduled (.inr (by decide))
  | checkSyntax => exact idle_checkSyntax_take (idle_follow _ .checkSyntax) _
  | probeLive => exact idle_follow _ .probeLive

/-! ## A run moves as its progress does -/

/-- At most one of the checks is wanted, and the other one is idle. -/
theorem follow_evaluated (step : Step) :
    follow files parser hosts
        (ofProgress files parser hosts request config .evaluated) step =
      ofProgress files parser hosts request config
        (Progress.evaluated.next (Verification.start request config).wantsParser
          (Verification.start request config).wantsProbe step) := by
  cases step with
  | load => exact follow_of_idle (idle_load_scheduled (by decide))
  | runRules => exact follow_of_idle (idle_runRules_scheduled (.inr (by decide)))
  | checkSyntax =>
    cases hparser : (Verification.start request config).wantsParser with
    | true =>
      have hprobe := Verification.wantsProbe_eq_false hparser
      exact (follow_of_idle (idle_probeLive_of_not_wanted
        [.load, .runRules, .checkSyntax] hprobe)).symm
    | false => exact follow_of_idle (idle_checkSyntax_of_not_wanted _ hparser)
  | probeLive =>
    cases hprobe : (Verification.start request config).wantsProbe with
    | true =>
      have hparser := Verification.wantsParser_eq_false hprobe
      -- The step that is not taken stands in front of the probe.
      have hidle : (scheduled files parser hosts request config
          [.load, .runRules]).state.Idle .checkSyntax :=
        idle_checkSyntax_of_not_wanted _ hparser
      exact congrArg (follow files parser hosts · .probeLive)
        (follow_of_idle hidle).symm
    | false => exact follow_of_idle (idle_probeLive_of_not_wanted _ hprobe)

/-- A run that has come so far moves on as its progress does. -/
theorem follow_ofProgress (p : Progress) (step : Step) :
    follow files parser hosts (ofProgress files parser hosts request config p) step =
      ofProgress files parser hosts request config
        (p.next (Verification.start request config).wantsParser
          (Verification.start request config).wantsProbe step) := by
  cases p with
  | fresh =>
    cases step with
    | load => rfl
    | runRules => exact follow_of_idle (idle_runRules_scheduled (.inl (by decide)))
    | checkSyntax => exact follow_of_idle (idle_checks_scheduled (by decide)).1
    | probeLive => exact follow_of_idle (idle_checks_scheduled (by decide)).2
  | loaded =>
    cases step with
    | load => exact follow_of_idle (idle_load_scheduled (by decide))
    | runRules => rfl
    | checkSyntax => exact follow_of_idle (idle_checks_scheduled (by decide)).1
    | probeLive => exact follow_of_idle (idle_checks_scheduled (by decide)).2
  | evaluated => exact follow_evaluated step
  | checked => cases step <;> exact follow_of_idle (idle_of_checked _)

/-- A schedule gets exactly as far as its steps take it. -/
theorem scheduled_eq_ofProgress (steps : List Step) :
    scheduled files parser hosts request config steps =
      ofProgress files parser hosts request config
        (steps.foldl
          (Progress.next (Verification.start request config).wantsParser
            (Verification.start request config).wantsProbe) .fresh) := by
  suffices h : ∀ p, steps.foldl (follow files parser hosts)
      (ofProgress files parser hosts request config p) =
        ofProgress files parser hosts request config
          (steps.foldl (Progress.next (Verification.start request config).wantsParser
            (Verification.start request config).wantsProbe) p) from h .fresh
  induction steps with
  | nil => exact fun _ => rfl
  | cons step steps ih =>
    intro p
    rw [List.foldl_cons, List.foldl_cons, follow_ofProgress]
    exact ih _

/-- A schedule that holds the steps of a whole run, with the checks in either
order, gets as far as a whole run. -/
theorem scheduled_eq_checked (steps : List Step)
    (hsteps : List.Sublist [.load, .runRules, .checkSyntax, .probeLive] steps ∨
      List.Sublist [.load, .runRules, .probeLive, .checkSyntax] steps) :
    scheduled files parser hosts request config steps =
      ofProgress files parser hosts request config .checked := by
  have hchecked : ofProgress files parser hosts request config .checked = _ :=
    scheduled_eq_ofProgress [.load, .runRules, .checkSyntax, .probeLive]
  rw [scheduled_eq_ofProgress, Progress.foldl_next_eq_last _ _ hsteps]
  rw [hchecked, Progress.foldl_next_eq_last _ _ (.inl (.refl _))]

/-- A whole run, step by step.  The application is probed only where the
parser has not been asked, so its host finds nothing done yet. -/
theorem verify_eq_ofProgress (tool : Tool) :
    verify files parser (some (hosts [])) request config tool =
      ((ofProgress files parser hosts request config .checked).state.summarize tool,
        (ofProgress files parser hosts request config .checked).events) := by
  let h := ofProgress files parser hosts request config .evaluated
  let asked := follow files parser hosts h .checkSyntax
  -- `verify` asks and probes one and the same host.
  have hverify : verify files parser (some (hosts [])) request config tool =
      (let probed := asked.take ⟨.probeLive, files, parser, hosts []⟩
       (probed.state.summarize tool, probed.events)) := rfl
  have hchecked : ofProgress files parser hosts request config .checked =
      asked.take ⟨.probeLive, files, parser, hosts asked.events⟩ := rfl
  rw [hverify, hchecked]
  cases hparser : (Verification.start request config).wantsParser with
  | true =>
    have hprobe := Verification.wantsProbe_eq_false hparser
    have hidle : asked.state.Idle .probeLive :=
      idle_probeLive_of_not_wanted [.load, .runRules, .checkSyntax] hprobe
    have hprobed : ∀ around, asked.take ⟨.probeLive, around⟩ = asked :=
      fun _ => take_of_idle hidle
    rw [hprobed, hprobed]
  | false =>
    have hidle : h.state.Idle .checkSyntax :=
      idle_checkSyntax_of_not_wanted [.load, .runRules] hparser
    have hasked : asked = h := follow_of_idle hidle
    have hevents : asked.events = [] := by rw [hasked]; rfl
    rw [hevents]

variable (files parser hosts request config)

/-- A schedule that holds the steps of a whole run, with the checks in either
order, ends in the report of the whole run, and has done to the surroundings
what the whole run does.  Steps that are called too early, again or in
between make no difference. -/
theorem scheduled_eq_verify (tool : Tool) (steps : List Step)
    (hsteps : List.Sublist [.load, .runRules, .checkSyntax, .probeLive] steps ∨
      List.Sublist [.load, .runRules, .probeLive, .checkSyntax] steps) :
    ((scheduled files parser hosts request config steps).state.summarize tool,
        (scheduled files parser hosts request config steps).events) =
      verify files parser (some (hosts [])) request config tool := by
  rw [verify_eq_ofProgress, scheduled_eq_checked steps hsteps]

end Lasting

/-- A schedule that calls steps before their turn, again, and the checks in
the other order. -/
def restless : List Step :=
  [.probeLive, .runRules, .load, .checkSyntax, .load, .runRules, .probeLive,
    .runRules, .checkSyntax, .probeLive]

/-- A host that no longer answers as before once something has been done to
it. -/
def fickle (events : List Event) : Host where
  launch := .ok ()
  answer _ := .ok ⟨if events.isEmpty then 200 else 500, none⟩
  terminate := .ok ()
  wait := .ok true

theorem scheduled_restless_eq_verify :
    List.Sublist [.load, .runRules, .probeLive, .checkSyntax] restless ∧
      ((scheduled (FileSystem.empty.set "app.py" (.file [0x61])) (fun _ => .valid)
            fickle ⟨"app.py", .flask, .none⟩ .default restless).state.summarize
          ⟨"preflight", "0.1.0", none⟩,
        (scheduled (FileSystem.empty.set "app.py" (.file [0x61])) (fun _ => .valid)
            fickle ⟨"app.py", .flask, .none⟩ .default restless).events) =
        verify (FileSystem.empty.set "app.py" (.file [0x61])) (fun _ => .valid)
          (some (fickle [])) ⟨"app.py", .flask, .none⟩ .default
          ⟨"preflight", "0.1.0", none⟩ :=
  ⟨by decide, scheduled_eq_verify _ _ _ _ _ _ restless (.inr (by decide))⟩

end History

end Preflight
