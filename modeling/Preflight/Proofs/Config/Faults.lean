import Mathlib.Data.List.Perm.Subperm
import Preflight.Config.Basic
import Preflight.Proofs.Enclosing
import Preflight.Proofs.Live.Trace

/-!
# Settings that make sense

`Config.Has` says of each fault when settings have it, and `Config.Sound` what
settings without a fault are like.  Faults are looked for in the order of
`Fault.rank`, and of several faults the first one is told
(`Config.fault?_eq_some_iff`).

What sound settings are good for is said where they are used:

* `DetectionPolicy.exists_occurs_of_detect`: a profile is chosen only if one of
  its signatures occurs.
* `LiveSettings.polls_of_launch`: a server that has been started is polled.

`fault?_decides` puts these together.
-/

namespace Preflight

namespace Config

variable {c : Config} {f g : Fault} {seen list : List Profile} {p q : Profile}

/-! ## Repeated priorities -/

/-- No profile of the list repeats another one or stands in `seen`. -/
def Fresh (seen list : List Profile) : Prop :=
  list.Nodup ∧ ∀ q ∈ list, q ∉ seen

theorem fresh_nil (seen : List Profile) : Fresh seen [] :=
  ⟨List.nodup_nil, nofun⟩

theorem fresh_nil_left_iff : Fresh [] list ↔ list.Nodup := by
  simp [Fresh]

theorem fresh_cons_iff :
    Fresh seen (q :: list) ↔ q ∉ seen ∧ Fresh (q :: seen) list := by
  constructor
  · rintro ⟨hnodup, hnew⟩
    obtain ⟨hq, hlist⟩ := List.nodup_cons.mp hnodup
    obtain ⟨hseen, hrest⟩ := List.forall_mem_cons.mp hnew
    refine ⟨hseen, hlist, fun r hr => ?_⟩
    exact List.not_mem_cons_of_ne_of_not_mem (fun h => hq (h ▸ hr)) (hrest r hr)
  · rintro ⟨hseen, hlist, hnew⟩
    have hq : q ∉ list := fun hmem => hnew q hmem List.mem_cons_self
    refine ⟨List.nodup_cons.mpr ⟨hq, hlist⟩, List.forall_mem_cons.mpr ⟨hseen, ?_⟩⟩
    intro r hr hmem
    exact hnew r hr (List.mem_cons_of_mem q hmem)

theorem firstRepeated?_eq_none_iff :
    firstRepeated? seen list = none ↔ Fresh seen list := by
  induction list generalizing seen with
  | nil => exact iff_of_true rfl (fresh_nil seen)
  | cons q list ih =>
    rw [firstRepeated?, fresh_cons_iff, ← ih]
    by_cases hq : q ∈ seen
    · simp [hq]
    · simp [hq]

/-- The profile that is found repeats an earlier one, and none in front of it
does. -/
theorem firstRepeated?_eq_some_iff :
    firstRepeated? seen list = some p ↔
      ∃ before after, list = before ++ p :: after ∧ Fresh seen before ∧
        (p ∈ before ∨ p ∈ seen) := by
  induction list generalizing seen with
  | nil => simp [firstRepeated?]
  | cons q list ih =>
    rw [firstRepeated?]
    by_cases hq : q ∈ seen
    · rw [if_pos hq]
      constructor
      · intro h
        obtain rfl : q = p := Option.some.inj h
        exact ⟨[], list, rfl, fresh_nil seen, .inr hq⟩
      · rintro ⟨before, after, hsplit, hfresh, -⟩
        cases before with
        | nil => rw [(List.cons.inj hsplit).1]
        | cons r before =>
          obtain ⟨rfl, -⟩ := List.cons.inj hsplit
          exact absurd hq (fresh_cons_iff.mp hfresh).1
    · rw [if_neg hq, ih]
      constructor
      · rintro ⟨before, after, rfl, hfresh, hp⟩
        refine ⟨q :: before, after, rfl, fresh_cons_iff.mpr ⟨hq, hfresh⟩, ?_⟩
        simp only [List.mem_cons] at hp ⊢
        tauto
      · rintro ⟨before, after, hsplit, hfresh, hp⟩
        cases before with
        | nil =>
          obtain ⟨rfl, -⟩ := List.cons.inj hsplit
          exact absurd hp (by simp [hq])
        | cons r before =>
          obtain ⟨rfl, rfl⟩ := List.cons.inj hsplit
          refine ⟨before, after, rfl, (fresh_cons_iff.mp hfresh).2, ?_⟩
          simp only [List.mem_cons] at hp ⊢
          tauto

/-- Only as many different profiles can be listed as there are. -/
theorem length_le_of_nodup (h : list.Nodup) : list.length ≤ 3 := by
  have hsub : list ⊆ Profile.all := by
    intro p _
    cases p <;> decide
  exact (h.subperm hsub).length_le

/-! ## Faults -/

/-- The settings have the fault. -/
def Has (c : Config) : Fault → Prop
  | .zeroConfidence => c.detection.minConfidence = 0
  | .repeatedPriority p =>
    ∃ before after, c.detection.priority = before ++ p :: after ∧
      before.Nodup ∧ p ∈ before
  | .zeroAttempts => c.live.attempts = 0
  | .emptyBaseUrl => ∀ a ∈ c.live.baseUrl.toList, Text.isSpace a = true

/-- The place of a fault in the order in which faults are looked for. -/
def Fault.rank : Fault → Nat
  | zeroConfidence => 0
  | repeatedPriority _ => 1
  | zeroAttempts => 2
  | emptyBaseUrl => 3

/-- Settings that make sense. -/
structure Sound (c : Config) : Prop where
  confidence : 1 ≤ c.detection.minConfidence
  priority : c.detection.priority.Nodup
  attempts : 1 ≤ c.live.attempts
  baseUrl : ∃ a ∈ c.live.baseUrl.toList, Text.isSpace a = false

theorem has_repeatedPriority_iff :
    c.Has (.repeatedPriority p) ↔
      firstRepeated? [] c.detection.priority = some p := by
  rw [firstRepeated?_eq_some_iff, Has]
  simp only [fresh_nil_left_iff, List.not_mem_nil, or_false]

theorem nodup_priority_iff :
    c.detection.priority.Nodup ↔ ∀ p, ¬c.Has (.repeatedPriority p) := by
  rw [← fresh_nil_left_iff, ← firstRepeated?_eq_none_iff,
    Option.eq_none_iff_forall_ne_some]
  simp only [has_repeatedPriority_iff, ne_eq]

theorem has_emptyBaseUrl_iff :
    c.Has .emptyBaseUrl ↔ Text.isBlank c.live.baseUrl.toList = true :=
  List.all_eq_true.symm

/-- Settings make sense exactly if they have no fault. -/
theorem sound_iff : c.Sound ↔ ∀ f, ¬c.Has f := by
  constructor
  · intro h f hf
    cases f with
    | zeroConfidence => exact absurd h.confidence (by rw [hf]; decide)
    | repeatedPriority p => exact nodup_priority_iff.mp h.priority p hf
    | zeroAttempts => exact absurd h.attempts (by rw [hf]; decide)
    | emptyBaseUrl =>
      obtain ⟨a, ha, hspace⟩ := h.baseUrl
      rw [hf a ha] at hspace
      cases hspace
  · intro h
    refine ⟨?_, ?_, ?_, ?_⟩
    · exact Nat.one_le_iff_ne_zero.mpr (h .zeroConfidence)
    · exact nodup_priority_iff.mpr fun p => h (.repeatedPriority p)
    · exact Nat.one_le_iff_ne_zero.mpr (h .zeroAttempts)
    · have hbase : ¬∀ a ∈ c.live.baseUrl.toList, Text.isSpace a = true :=
        h .emptyBaseUrl
      simpa using hbase

/-- At each rank there is at most one fault. -/
theorem Has.eq (hf : c.Has f) (hg : c.Has g) (hrank : f.rank = g.rank) : f = g := by
  cases f with
  | repeatedPriority p =>
    cases g with
    | repeatedPriority q =>
      rw [has_repeatedPriority_iff] at hf hg
      rw [Option.some.inj (hf.symm.trans hg)]
    | zeroConfidence | zeroAttempts | emptyBaseUrl => simp [Fault.rank] at hrank
  | zeroConfidence | zeroAttempts | emptyBaseUrl =>
    cases g <;> first | rfl | simp [Fault.rank] at hrank

/-- The settings have the fault, and no other one that is looked for earlier. -/
def HasFirst (c : Config) (f : Fault) : Prop :=
  c.Has f ∧ ∀ g, c.Has g → f.rank ≤ g.rank

theorem HasFirst.eq (hf : c.HasFirst f) (hg : c.HasFirst g) : f = g :=
  hf.1.eq hg.1 (Nat.le_antisymm (hf.2 g hg.1) (hg.2 f hf.1))

/-- What is told of settings: a fault that they have and no earlier one, or that
they have none. -/
theorem fault?_cases (c : Config) :
    (∃ f, c.fault? = some f ∧ c.HasFirst f) ∨ c.fault? = none ∧ c.Sound := by
  rw [fault?]
  by_cases hconfidence : c.detection.minConfidence = 0
  · rw [if_pos hconfidence]
    exact .inl ⟨_, rfl, hconfidence, fun g _ => Nat.zero_le _⟩
  rw [if_neg hconfidence]
  cases hrepeated : firstRepeated? [] c.detection.priority with
  | some p =>
    refine .inl ⟨_, rfl, has_repeatedPriority_iff.mpr hrepeated, fun g hg => ?_⟩
    cases g with
    | zeroConfidence => exact absurd hg hconfidence
    | repeatedPriority | zeroAttempts | emptyBaseUrl => simp [Fault.rank]
  | none =>
    have hpriority (p : Profile) : ¬c.Has (.repeatedPriority p) := by
      rw [has_repeatedPriority_iff, hrepeated]
      exact nofun
    by_cases hattempts : c.live.attempts = 0
    · simp only [if_pos hattempts]
      refine .inl ⟨_, rfl, hattempts, fun g hg => ?_⟩
      cases g with
      | zeroConfidence => exact absurd hg hconfidence
      | repeatedPriority p => exact absurd hg (hpriority p)
      | zeroAttempts | emptyBaseUrl => simp [Fault.rank]
    simp only [if_neg hattempts]
    by_cases hbase : Text.isBlank c.live.baseUrl.toList = true
    · simp only [if_pos hbase]
      refine .inl ⟨_, rfl, has_emptyBaseUrl_iff.mpr hbase, fun g hg => ?_⟩
      cases g with
      | zeroConfidence => exact absurd hg hconfidence
      | repeatedPriority p => exact absurd hg (hpriority p)
      | zeroAttempts => exact absurd hg hattempts
      | emptyBaseUrl => exact Nat.le_refl _
    · simp only [if_neg hbase]
      refine .inr ⟨trivial, sound_iff.mpr fun g hg => ?_⟩
      cases g with
      | zeroConfidence => exact hconfidence hg
      | repeatedPriority p => exact hpriority p hg
      | zeroAttempts => exact hattempts hg
      | emptyBaseUrl => exact hbase (has_emptyBaseUrl_iff.mp hg)

theorem fault?_eq_none_iff : c.fault? = none ↔ c.Sound := by
  rcases c.fault?_cases with ⟨f, hfault, hfirst⟩ | ⟨hfault, hsound⟩
  · rw [hfault]
    exact iff_of_false nofun fun hsound => sound_iff.mp hsound f hfirst.1
  · exact iff_of_true hfault hsound

theorem fault?_eq_some_iff : c.fault? = some f ↔ c.HasFirst f := by
  rcases c.fault?_cases with ⟨g, hfault, hfirst⟩ | ⟨hfault, hsound⟩
  · rw [hfault]
    constructor
    · intro h
      rwa [← Option.some.inj h]
    · intro h
      rw [hfirst.eq h]
  · rw [hfault]
    exact iff_of_false nofun fun h => sound_iff.mp hsound f h.1

/-- The words for a fault tell it from all others. -/
theorem Fault.message_inj (h : f.message = g.message) : f = g := by
  rcases f with _ | ⟨_ | _ | _⟩ | _ | _ <;> rcases g with _ | ⟨_ | _ | _⟩ | _ | _ <;>
    first | rfl | exact absurd h (by decide)

end Config

/-! ## Signatures that occur -/

/-- The signature occurs in the text, letter case apart. -/
def Signature.Occurs (signature : Signature) (text : List Char) : Prop :=
  ∃ front piece back, Text.lowercase text = front ++ (piece ++ back) ∧
    match signature with
    | literal s => piece = s.toList
    | pattern p => p.Finds .insensitive front piece back

theorem Signature.occursIn_lowercase_iff {signature : Signature}
    {text : List Char} :
    signature.occursIn (Text.lowercase text) = true ↔ signature.Occurs text := by
  cases signature with
  | literal s =>
    rw [occursIn, Text.contains_iff_isInfix]
    constructor
    · rintro ⟨front, back, h⟩
      exact ⟨front, _, back, by rw [← h, List.append_assoc], rfl⟩
    · rintro ⟨front, _, back, h, rfl⟩
      exact ⟨front, back, by rw [h, List.append_assoc]⟩
  | pattern p => exact Pattern.occursIn_iff

/-- With a threshold, a profile is chosen only if one of its signatures occurs. -/
theorem DetectionPolicy.exists_occurs_of_detect {policy : DetectionPolicy}
    {text : List Char} {p : Profile} (hpolicy : 1 ≤ policy.minConfidence)
    (h : (policy.detect text).profile = some p) :
    ∃ signature ∈ p.signatures, signature.Occurs text := by
  have hchosen : policy.Chooses (.ofText text) p := decide_eq_some_iff.mp h
  have hscore : 0 < (Scores.ofText text).get p :=
    Nat.lt_of_lt_of_le hpolicy hchosen.confident
  rw [Scores.get_ofText, List.countP_pos_iff] at hscore
  obtain ⟨signature, hmem, hoccurs⟩ := hscore
  exact ⟨signature, hmem, Signature.occursIn_lowercase_iff.mp hoccurs⟩

/-- Without a threshold, a profile is chosen for the empty text. -/
example : ((⟨0, []⟩ : DetectionPolicy).detect []).profile = some .inventory := by
  decide

/-! ## Servers that are polled -/

namespace LiveSettings

variable {s : LiveSettings} {host : Host}

/-- The request that asks whether the server answers. -/
def readinessPoll (s : LiveSettings) : Event :=
  .get (s.url s.readyPath) s.readyTimeout

/-- With at least one attempt, the first thing done to a server that has been
started is to poll it. -/
theorem polls_of_launch (hattempts : 1 ≤ s.attempts)
    (hlaunch : host.launch = .ok ()) (probes : List Probe) (app : String) :
    ∃ later, (s.run host probes app).events =
      s.launching app :: s.readinessPoll :: later := by
  have hpolling {n : Nat} (hn : 1 ≤ n) :
      s.polling n = s.readinessPoll :: s.polling (n - 1) := by
    obtain ⟨m, rfl⟩ : ∃ m, n = m + 1 := ⟨n - 1, by omega⟩
    exact List.replicate_succ
  have htrace := s.trace_run host probes app
  cases hrun : s.run host probes app with
  | mk outcome diagnostics events =>
    rw [hrun] at htrace
    cases htrace with
    | launchFailed reason hfailed =>
      rw [hlaunch] at hfailed
      cases hfailed
    | notReady _ _ warning hwarning =>
      refine ⟨s.polling (s.attempts - 1) ++ s.ending, ?_⟩
      show s.launching app :: s.polling s.attempts ++ s.ending = _
      rw [hpolling hattempts]
      rfl
    | probed _ n hn hreply hfirst =>
      refine ⟨s.polling n ++ probes.map s.request ++ s.ending, ?_⟩
      show s.launching app :: s.polling (n + 1) ++ _ ++ s.ending = _
      rw [hpolling (Nat.succ_pos n)]
      rfl

/-- A server counts as not ready when all attempts have been made and none of them
got a reply. -/
theorem unanswered_of_notReady {probes : List Probe} {app : String}
    (h : (s.run host probes app).outcome = .notReady) :
    (s.run host probes app).events =
        s.launching app :: s.polling s.attempts ++ s.ending ∧
      ∀ n < s.attempts, ¬host.Replies n := by
  have htrace := s.trace_run host probes app
  cases hrun : s.run host probes app with
  | mk outcome diagnostics events =>
    rw [hrun] at htrace h
    cases htrace with
    | launchFailed | probed => cases h
    | notReady _ hnone => exact ⟨rfl, hnone⟩

end LiveSettings

/-! ## Settings that are accepted -/

namespace Config

/-- Settings are accepted exactly if they make sense, and otherwise their first
fault is told, in words of its own.  Under settings that are accepted, no profile
is chosen without any sign of it, the list of priorities is short, and a server
that has been started is polled before it is given up. -/
theorem fault?_decides (c : Config) :
    (c.fault? = none ↔ c.Sound) ∧
      (∀ f, c.fault? = some f ↔ c.HasFirst f) ∧
      (∀ f g : Fault, f.message = g.message → f = g) ∧
      (∀ p : Profile,
        p.label.toList <:+: (Fault.repeatedPriority p).message.toList) ∧
      (c.fault? = none →
        (∀ text p, (c.detection.detect text).profile = some p →
          ∃ signature ∈ p.signatures, signature.Occurs text) ∧
        c.detection.priority.length ≤ 3 ∧
        ∀ host probes app, host.launch = .ok () →
          let result := c.live.run host probes app
          (∃ later, result.events =
            c.live.launching app :: c.live.readinessPoll :: later) ∧
          (result.outcome = .notReady →
            result.events = c.live.launching app ::
              c.live.polling c.live.attempts ++ c.live.ending ∧
            ∀ n < c.live.attempts, ¬host.Replies n)) := by
  refine ⟨fault?_eq_none_iff, fun f => fault?_eq_some_iff,
    fun f g => Fault.message_inj, ?_, fun haccepted => ?_⟩
  · intro p
    rw [← Text.contains_iff_isInfix]
    cases p <;> decide
  · have hsound : c.Sound := fault?_eq_none_iff.mp haccepted
    refine ⟨?_, length_le_of_nodup hsound.priority, ?_⟩
    · intro text p hprofile
      exact DetectionPolicy.exists_occurs_of_detect hsound.confidence hprofile
    · intro host probes app hlaunch result
      constructor
      · exact LiveSettings.polls_of_launch hsound.attempts hlaunch probes app
      · exact LiveSettings.unanswered_of_notReady

/-- The stock settings, for a script that shows a profile and a server that never
answers. -/
theorem fault?_decides_of_default :
    let text := "MSIEXEC /i app.msi /Quiet".toList
    let host : Host := ⟨.ok (), fun _ => .error "refused", .ok (), .ok true⟩
    let result := default.live.run host [] "app.py"
    default.fault? = none ∧ default.Sound ∧
      (default.detection.detect text).profile = some .deploy ∧
      (∃ signature ∈ Profile.deploy.signatures, signature.Occurs text) ∧
      result.outcome = .notReady ∧
      ∃ later, result.events =
        default.live.launching "app.py" :: default.live.readinessPoll :: later := by
  intro text host result
  obtain ⟨hsound, -, -, -, haccepted⟩ := fault?_decides default
  have hfault : default.fault? = none := by decide +kernel
  have hprofile : (default.detection.detect text).profile = some .deploy := by
    decide +kernel
  obtain ⟨hdetect, -, hlive⟩ := haccepted hfault
  refine ⟨hfault, hsound.mp hfault, hprofile, hdetect text .deploy hprofile, ?_, ?_⟩
  · decide +kernel
  · exact (hlive host [] "app.py" rfl).1

end Config

end Preflight
