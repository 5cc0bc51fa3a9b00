import Mathlib.Data.List.Nodup
import Preflight.Config.Json
import Preflight.Proofs.Report.RoundTrip

/-!
# Configurations that are given in part

A configuration has sixteen settings in four sections.  `Config.only` keeps some
of them and gives the others their defaults, and `Config.Written` says that a
document has the values of just these: in any order, among fields with other
names, and with or without the sections from which none is kept.

* `Shuffled.lookup_eq`: what stands in a document for a known name.
* One lemma for each section (`ofValue?_of_written`): its settings are read one
  by one, and each that is not there has its own default.
* `Written.canonical`: a document that has been written as text and read again
  still has the same settings.

The main result is `Config.reads_only`.
-/

namespace Preflight

open Json

/-! ## Known fields among others -/

/-- The known fields, in any order and among others, whose names are not among
those that are looked for. -/
def Shuffled (names : List String) (known fields : List (String × Value)) : Prop :=
  ∃ unknown : List (String × Value), (∀ f ∈ unknown, f.1 ∉ names) ∧
    fields.Perm (known ++ unknown)

namespace Shuffled

variable {names : List String} {known fields : List (String × Value)}

theorem refl (names : List String) (known : List (String × Value)) :
    Shuffled names known known :=
  ⟨[], List.forall_mem_nil _, by rw [List.append_nil]⟩

theorem lookup_eq {name : String} (h : Shuffled names known fields)
    (hknown : (known.map Prod.fst).Nodup) (hname : name ∈ names) :
    fields.lookup name = known.lookup name := by
  obtain ⟨unknown, hunknown, hfields⟩ := h
  refine Value.lookup_of_perm hfields hknown fun hmem => ?_
  obtain ⟨f, hf, rfl⟩ := List.mem_map.mp hmem
  exact hunknown f hf hname

/-- Putting the fields in order is another order. -/
theorem canonical (h : Shuffled names known fields)
    (hfields : (fields.map Prod.fst).Nodup) :
    Shuffled names (Value.canonicalFields known)
      (Fields.ofList (Value.canonicalFields fields)) := by
  obtain ⟨unknown, hunknown, hperm⟩ := h
  have hordered : ((Value.canonicalFields fields).map Prod.fst).Nodup := by
    rw [Value.map_fst_canonicalFields]
    exact hfields
  have hmapped := hperm.map fun f => (f.1, f.2.canonical)
  rw [List.map_append, ← Value.canonicalFields_eq_map,
    ← Value.canonicalFields_eq_map, ← Value.canonicalFields_eq_map] at hmapped
  refine ⟨Value.canonicalFields unknown, fun f hf => ?_,
    (Fields.ofList_perm hordered).trans hmapped⟩
  rw [Value.canonicalFields_eq_map, List.mem_map] at hf
  obtain ⟨g, hg, rfl⟩ := hf
  exact hunknown g hg

end Shuffled

namespace Config

/-! ## Settings -/

/-- The sections. -/
inductive Section where
  | detection
  | parserCheck
  | live
  | flask
  deriving DecidableEq

/-- The settings, in the order of their sections. -/
inductive Setting where
  | minConfidence
  | priority
  | parserEnabled
  | parserProgram
  | parserTimeout
  | liveEnabled
  | liveProgram
  | liveArgs
  | baseUrl
  | readyPath
  | attempts
  | interval
  | readyTimeout
  | requestTimeout
  | shutdownTimeout
  | endpoints
  deriving DecidableEq

/-- The name of a setting in its section. -/
def Setting.name : Setting → String
  | minConfidence => "min_confidence"
  | priority => "priority"
  | parserEnabled | liveEnabled => "enabled"
  | parserProgram | liveProgram => "program"
  | parserTimeout => "timeout_ms"
  | liveArgs => "args"
  | baseUrl => "base_url"
  | readyPath => "ready_path"
  | attempts => "attempts"
  | interval => "interval_ms"
  | readyTimeout => "ready_timeout_ms"
  | requestTimeout => "request_timeout_ms"
  | shutdownTimeout => "shutdown_timeout_ms"
  | endpoints => "expected_endpoints"

/-- The value of a setting as data. -/
def Setting.value (c : Config) : Setting → Value
  | minConfidence => .number (.int c.detection.minConfidence)
  | priority => .array (c.detection.priority.map fun p => .string p.key)
  | parserEnabled => .bool c.parserCheck.enabled
  | parserProgram => .string c.parserCheck.program
  | parserTimeout => .number (.int c.parserCheck.timeout)
  | liveEnabled => .bool c.live.enabled
  | liveProgram => .string c.live.program
  | liveArgs => .array (c.live.args.map .string)
  | baseUrl => .string c.live.baseUrl
  | readyPath => .string c.live.readyPath
  | attempts => .number (.int c.live.attempts)
  | interval => .number (.int c.live.interval)
  | readyTimeout => .number (.int c.live.readyTimeout)
  | requestTimeout => .number (.int c.live.requestTimeout)
  | shutdownTimeout => .number (.int c.live.shutdownTimeout)
  | endpoints => .array (c.endpoints.map .string)

namespace Section

/-- The name of a section. -/
def name : Section → String
  | detection => "detection"
  | parserCheck => "syntax"
  | live => "live"
  | flask => "flask"

/-- All sections. -/
def all : List Section := [detection, parserCheck, live, flask]

/-- The settings of a section. -/
def settings : Section → List Setting
  | detection => [.minConfidence, .priority]
  | parserCheck => [.parserEnabled, .parserProgram, .parserTimeout]
  | live =>
    [.liveEnabled, .liveProgram, .liveArgs, .baseUrl, .readyPath, .attempts, .interval,
      .readyTimeout, .requestTimeout, .shutdownTimeout]
  | flask => [.endpoints]

end Section

/-- The chosen settings of a configuration; the others have their defaults. -/
def only (chosen : Setting → Bool) (c : Config) : Config where
  detection := {
    minConfidence := if chosen .minConfidence then c.detection.minConfidence
      else DetectionPolicy.default.minConfidence
    priority := if chosen .priority then c.detection.priority
      else DetectionPolicy.default.priority }
  parserCheck := {
    enabled := if chosen .parserEnabled then c.parserCheck.enabled
      else ParserSettings.default.enabled
    program := if chosen .parserProgram then c.parserCheck.program
      else ParserSettings.default.program
    timeout := if chosen .parserTimeout then c.parserCheck.timeout
      else ParserSettings.default.timeout }
  live := {
    enabled := if chosen .liveEnabled then c.live.enabled
      else LiveSettings.default.enabled
    program := if chosen .liveProgram then c.live.program
      else LiveSettings.default.program
    args := if chosen .liveArgs then c.live.args else LiveSettings.default.args
    baseUrl := if chosen .baseUrl then c.live.baseUrl
      else LiveSettings.default.baseUrl
    readyPath := if chosen .readyPath then c.live.readyPath
      else LiveSettings.default.readyPath
    attempts := if chosen .attempts then c.live.attempts
      else LiveSettings.default.attempts
    interval := if chosen .interval then c.live.interval
      else LiveSettings.default.interval
    readyTimeout := if chosen .readyTimeout then c.live.readyTimeout
      else LiveSettings.default.readyTimeout
    requestTimeout := if chosen .requestTimeout then c.live.requestTimeout
      else LiveSettings.default.requestTimeout
    shutdownTimeout := if chosen .shutdownTimeout then c.live.shutdownTimeout
      else LiveSettings.default.shutdownTimeout }
  endpoints := if chosen .endpoints then c.endpoints else default.endpoints

/-- The numbers of a configuration fit their types: attempts have 32 bits, the
others 64. -/
structure InRange (c : Config) : Prop where
  minConfidence : Number.fitsWord c.detection.minConfidence
  parserTimeout : Number.fitsWord c.parserCheck.timeout
  attempts : c.live.attempts < 1 <<< 32
  interval : Number.fitsWord c.live.interval
  readyTimeout : Number.fitsWord c.live.readyTimeout
  requestTimeout : Number.fitsWord c.live.requestTimeout
  shutdownTimeout : Number.fitsWord c.live.shutdownTimeout

/-! ## Documents -/

variable {chosen : Setting → Bool} {c : Config} {v w : Value}

namespace Section

/-- The fields of a section for its chosen settings. -/
def fields (chosen : Setting → Bool) (c : Config) (s : Section) :
    List (String × Value) :=
  (s.settings.filter chosen).map fun k => (k.name, k.value c)

/-- The section has the chosen settings, and nothing for the others. -/
def Written (chosen : Setting → Bool) (c : Config) (s : Section) (v : Value) :
    Prop :=
  ∃ fields, v = .object fields ∧
    Shuffled (s.settings.map Setting.name) (s.fields chosen c) fields

/-- What stands for a section: the section, or nothing if no setting of it is
chosen. -/
def Found (chosen : Setting → Bool) (c : Config) (s : Section) :
    Option Value → Prop
  | some v => s.Written chosen c v
  | none => ∀ k ∈ s.settings, chosen k = false

end Section

/-- The document has the chosen settings, and nothing for the others.  Sections from
which nothing is chosen may be there or not. -/
inductive Written (chosen : Setting → Bool) (c : Config) : Value → Prop
  | object {given : List Section} {body : Section → Value}
      {fields : List (String × Value)} (hgiven : given.Nodup)
      (habsent : ∀ s, s ∉ given → ∀ k ∈ s.settings, chosen k = false)
      (hbody : ∀ s ∈ given, s.Written chosen c (body s))
      (hfields : Shuffled (Section.all.map Section.name)
        (given.map fun s => (s.name, body s)) fields) :
      Written chosen c (.object fields)

/-- A document for the chosen settings, with the given sections. -/
def partOf (chosen : Setting → Bool) (given : List Section) (c : Config) : Value :=
  .object (given.map fun s => (s.name, .object (s.fields chosen c)))

theorem written_partOf {given : List Section} (hgiven : given.Nodup)
    (habsent : ∀ s, s ∉ given → ∀ k ∈ s.settings, chosen k = false) :
    Written chosen c (c.partOf chosen given) :=
  .object hgiven habsent (fun _ _ => ⟨_, rfl, .refl _ _⟩) (.refl _ _)

/-- All settings make the whole document. -/
theorem toValue_eq_partOf (c : Config) :
    c.toValue = c.partOf (fun _ => true) Section.all :=
  rfl

/-! ## What is found for a setting -/

theorem Section.names_nodup (s : Section) : (s.settings.map Setting.name).Nodup := by
  cases s <;> decide

theorem Section.mem_all (s : Section) : s ∈ all := by
  cases s <;> decide

theorem Section.eq_of_name_eq {s t : Section} (h : s.name = t.name) : s = t := by
  cases s <;> cases t <;> first | rfl | simp [name] at h

/-- A known name leads to the value of its setting if that is chosen, and to nothing
otherwise. -/
theorem Section.lookup_eq {s : Section} {fields : List (String × Value)}
    (h : Shuffled (s.settings.map Setting.name) (s.fields chosen c) fields)
    {k : Setting} (hk : k ∈ s.settings) :
    fields.lookup k.name = if chosen k then some (k.value c) else none := by
  have hnames : ((s.fields chosen c).map Prod.fst).Nodup := by
    have hsublist := (s.settings.filter_sublist (p := chosen)).map Setting.name
    rw [Section.fields, List.map_map]
    exact hsublist.nodup s.names_nodup
  rw [h.lookup_eq hnames (List.mem_map_of_mem hk)]
  by_cases hchosen : chosen k = true
  · rw [if_pos hchosen]
    refine Value.lookup_of_mem hnames (List.mem_map.mpr ⟨k, ?_, rfl⟩)
    exact List.mem_filter.mpr ⟨hk, hchosen⟩
  · rw [if_neg hchosen, List.lookup_eq_none_iff]
    intro f hf
    obtain ⟨other, hother, rfl⟩ := List.mem_map.mp hf
    obtain ⟨hmem, hset⟩ := List.mem_filter.mp hother
    have hne : k ≠ other := by
      rintro rfl
      exact hchosen hset
    refine bne_iff_ne.mpr fun heq => hne ?_
    exact List.inj_on_of_nodup_map s.names_nodup hk hmem heq

/-- What stands in a document for a section. -/
theorem Written.found {fields : List (String × Value)}
    (h : Written chosen c (.object fields)) (s : Section) :
    s.Found chosen c (fields.lookup s.name) := by
  cases h with
  | @object given body _ hgiven habsent hbody hfields =>
    have hinjective : Function.Injective Section.name := fun _ _ =>
      Section.eq_of_name_eq
    have hnames : ((given.map fun s => (s.name, body s)).map Prod.fst).Nodup := by
      rw [List.map_map]
      exact hgiven.map hinjective
    rw [hfields.lookup_eq hnames (List.mem_map_of_mem s.mem_all)]
    by_cases hs : s ∈ given
    · rw [Value.lookup_of_mem hnames (List.mem_map.mpr ⟨s, hs, rfl⟩)]
      exact hbody s hs
    · have hnone : (given.map fun s => (s.name, body s)).lookup s.name = none := by
        rw [List.lookup_eq_none_iff]
        intro f hf
        obtain ⟨t, ht, rfl⟩ := List.mem_map.mp hf
        refine bne_iff_ne.mpr fun heq => hs ?_
        rw [hinjective heq]
        exact ht
      rw [hnone]
      exact habsent s hs

/-! ## Readers -/

section

variable {α : Type} {read? : Value → Option α} {a : α} {found : Option Value}

/-- A setting is read if it is chosen, and has its default otherwise. -/
theorem orDefault_setting {b : Bool} (default : α)
    (hfound : found = if b then some v else none) (hread : Recovers read? v a) :
    orDefault read? default found = some (if b then a else default) := by
  rw [hfound]
  cases b with
  | true => exact hread v (.refl v)
  | false => rfl

/-- A section is read if it is there, and has its defaults otherwise. -/
theorem orDefault_section {s : Section} {default : α}
    (hfound : s.Found chosen c found)
    (hread : ∀ v, s.Written chosen c v → read? v = some a)
    (habsent : (∀ k ∈ s.settings, chosen k = false) → a = default) :
    orDefault read? default found = some a := by
  cases found with
  | some v => exact hread v hfound
  | none => exact congrArg some (habsent hfound).symm

end

theorem strings_recover (l : List String) :
    Recovers (Value.list? Value.string?) (.array (l.map .string)) l :=
  .list .string l

theorem bool_recovers (b : Bool) : Recovers Value.bool? (.bool b) b := by
  intro w h
  cases h
  rfl

end Config

section

open Config

variable {chosen : Setting → Bool} {c : Config} {v w : Value}

theorem DetectionPolicy.ofValue?_of_written (conventions : Conventions)
    (hc : c.InRange) (h : Section.detection.Written chosen c v) :
    ofValue? conventions v = some (c.only chosen).detection := by
  obtain ⟨fields, rfl, hfields⟩ := h
  have hfound {k : Setting} (hk : k ∈ Section.detection.settings) :=
    Section.lookup_eq hfields hk
  have hprofiles : Recovers (Value.list? (Profile.ofValue? conventions))
      (Setting.priority.value c) c.detection.priority :=
    .list (fun p => .choice conventions p.ofKey?_key) c.detection.priority
  have hconfidence := orDefault_setting default.minConfidence
    (hfound (k := .minConfidence) (by decide)) (count_recovers hc.minConfidence)
  have hpriority := orDefault_setting default.priority
    (hfound (k := .priority) (by decide)) hprofiles
  simp only [Setting.name] at hconfidence hpriority
  simp only [ofValue?, Value.fieldsOrDefault?, Value.fieldsOfObject, List.map_cons,
    List.map_nil, Option.bind_eq_bind, Option.bind_some, hconfidence, hpriority]
  rfl

theorem ParserSettings.ofValue?_of_written (conventions : Conventions)
    (hc : c.InRange) (h : Section.parserCheck.Written chosen c v) :
    ofValue? conventions v = some (c.only chosen).parserCheck := by
  obtain ⟨fields, rfl, hfields⟩ := h
  have hfound {k : Setting} (hk : k ∈ Section.parserCheck.settings) :=
    Section.lookup_eq hfields hk
  have henabled := orDefault_setting default.enabled
    (hfound (k := .parserEnabled) (by decide)) (bool_recovers _)
  have hprogram := orDefault_setting default.program
    (hfound (k := .parserProgram) (by decide)) (.string _)
  have htimeout := orDefault_setting default.timeout
    (hfound (k := .parserTimeout) (by decide)) (count_recovers hc.parserTimeout)
  simp only [Setting.name] at henabled hprogram htimeout
  simp only [ofValue?, Value.fieldsOrDefault?, Value.fieldsOfObject, List.map_cons,
    List.map_nil, Option.bind_eq_bind, Option.bind_some, henabled, hprogram,
    htimeout]
  rfl

theorem LiveSettings.ofValue?_of_written (conventions : Conventions)
    (hc : c.InRange) (h : Section.live.Written chosen c v) :
    ofValue? conventions v = some (c.only chosen).live := by
  obtain ⟨fields, rfl, hfields⟩ := h
  have hfound {k : Setting} (hk : k ∈ Section.live.settings) :=
    Section.lookup_eq hfields hk
  have henabled := orDefault_setting default.enabled
    (hfound (k := .liveEnabled) (by decide)) (bool_recovers _)
  have hprogram := orDefault_setting default.program
    (hfound (k := .liveProgram) (by decide)) (.string _)
  have hargs := orDefault_setting default.args
    (hfound (k := .liveArgs) (by decide)) (strings_recover _)
  have hbaseUrl := orDefault_setting default.baseUrl
    (hfound (k := .baseUrl) (by decide)) (.string _)
  have hreadyPath := orDefault_setting default.readyPath
    (hfound (k := .readyPath) (by decide)) (.string _)
  have hattempts := orDefault_setting default.attempts
    (hfound (k := .attempts) (by decide)) (.natIn hc.attempts)
  have hinterval := orDefault_setting default.interval
    (hfound (k := .interval) (by decide)) (count_recovers hc.interval)
  have hready := orDefault_setting default.readyTimeout
    (hfound (k := .readyTimeout) (by decide)) (count_recovers hc.readyTimeout)
  have hrequest := orDefault_setting default.requestTimeout
    (hfound (k := .requestTimeout) (by decide)) (count_recovers hc.requestTimeout)
  have hshutdown := orDefault_setting default.shutdownTimeout
    (hfound (k := .shutdownTimeout) (by decide)) (count_recovers hc.shutdownTimeout)
  simp only [Setting.name]
    at henabled hprogram hargs hbaseUrl hreadyPath hattempts hinterval hready hrequest hshutdown
  simp only [ofValue?, fieldNames, Value.fieldsOrDefault?, Value.fieldsOfObject,
    List.map_cons, List.map_nil, Option.bind_eq_bind, Option.bind_some, henabled,
    hprogram, hargs, hbaseUrl, hreadyPath, hattempts, hinterval, hready, hrequest,
    hshutdown]
  rfl

namespace Config

theorem endpointsOfValue?_of_written (conventions : Conventions)
    (h : Section.flask.Written chosen c v) :
    endpointsOfValue? conventions v = some (c.only chosen).endpoints := by
  obtain ⟨fields, rfl, hfields⟩ := h
  have hendpoints := orDefault_setting default.endpoints
    (Section.lookup_eq hfields (k := .endpoints) (by decide)) (strings_recover _)
  exact hendpoints

/-! ## Whole configurations -/

/-- The settings of the section have their defaults. -/
def Section.IsDefault (c : Config) : Section → Prop
  | detection => c.detection = default.detection
  | parserCheck => c.parserCheck = default.parserCheck
  | live => c.live = default.live
  | flask => c.endpoints = default.endpoints

/-- A section from which nothing is chosen has its defaults. -/
theorem isDefault_only {s : Section} (h : ∀ k ∈ s.settings, chosen k = false) :
    s.IsDefault (c.only chosen) := by
  cases s <;> simp only [Section.settings, List.forall_mem_cons] at h <;>
    simp only [Section.IsDefault, only, h, Bool.false_eq_true, if_false] <;> rfl

theorem ofValue?_of_written (conventions : Conventions) (hc : c.InRange)
    (h : Written chosen c w) : ofValue? conventions w = some (c.only chosen) := by
  have hsection := h
  cases h with
  | @object given body fields _ _ _ _ =>
    have hdetection := orDefault_section (hsection.found .detection)
      (fun _ => DetectionPolicy.ofValue?_of_written conventions hc) isDefault_only
    have hparser := orDefault_section (hsection.found .parserCheck)
      (fun _ => ParserSettings.ofValue?_of_written conventions hc) isDefault_only
    have hlive := orDefault_section (hsection.found .live)
      (fun _ => LiveSettings.ofValue?_of_written conventions hc) isDefault_only
    have hendpoints := orDefault_section (hsection.found .flask)
      (fun _ => endpointsOfValue?_of_written conventions) isDefault_only
    simp only [Section.name] at hdetection hparser hlive hendpoints
    simp only [ofValue?, Value.fieldsOrDefault?, Value.fieldsOfObject,
      List.map_cons, List.map_nil, Option.bind_eq_bind, Option.bind_some]
    rw [hdetection, hparser, hlive, hendpoints]
    rfl

/-! ## Texts -/

/-- The value of a setting holds no object, so it is read as it is written. -/
theorem Setting.canonical_value (c : Config) (k : Setting) :
    (k.value c).canonical = k.value c := by
  have hitems {α : Type} (toString : α → String) (l : List α) :
      Value.canonicalItems (l.map fun a => .string (toString a)) =
        l.map fun a => .string (toString a) := by
    induction l with
    | nil => rfl
    | cons a l ih =>
      rw [List.map_cons, Value.canonicalItems, ih]
      rfl
  cases k with
  | priority => exact congrArg Value.array (hitems Profile.key _)
  | liveArgs | endpoints => exact congrArg Value.array (hitems id _)
  | _ => rfl

theorem Section.Written.canonical {s : Section} {room : Nat}
    (h : s.Written chosen c v) (hv : v.Regular room) :
    s.Written chosen c v.canonical := by
  obtain ⟨fields, rfl, hfields⟩ := h
  have hknown : Value.canonicalFields (s.fields chosen c) = s.fields chosen c := by
    rw [Value.canonicalFields_eq_map, Section.fields, List.map_map]
    refine List.map_congr_left fun k _ => ?_
    exact congrArg (Prod.mk k.name) (k.canonical_value c)
  have hread := hfields.canonical hv.2.1
  rw [hknown] at hread
  exact ⟨_, rfl, hread⟩

/-- A document has the same settings when it has been read. -/
theorem Written.canonical {room : Nat} (h : Written chosen c w)
    (hw : w.Regular room) : Written chosen c w.canonical := by
  cases h with
  | @object given body fields hgiven habsent hbody hfields =>
    have hread := hfields.canonical hw.2.1
    rw [Value.canonicalFields_eq_map, List.map_map] at hread
    have hregular := Value.regularFields_iff.mp hw.2.2
    refine .object hgiven habsent (fun s hs => ?_) hread
    obtain ⟨unknown, -, hperm⟩ := hfields
    have hmem : (s.name, body s) ∈ fields := by
      refine hperm.mem_iff.mpr (List.mem_append_left unknown ?_)
      exact List.mem_map.mpr ⟨s, hs, rfl⟩
    exact (hbody s hs).canonical (hregular _ hmem)

theorem regular_toValue (hc : c.InRange) (room : Nat) :
    c.toValue.Regular (room + 3) := by
  have hstrings (l : List String) : (Value.array (l.map .string)).Regular (room + 1) :=
    ⟨room.succ_pos, regularItems_map fun _ => trivial⟩
  have hpriority : (Setting.priority.value c).Regular (room + 1) :=
    ⟨room.succ_pos, regularItems_map fun _ => trivial⟩
  have hattempts : Number.IsWord c.live.attempts := by
    have hlt : c.live.attempts < 0x100000000 := hc.attempts
    unfold Number.IsWord
    omega
  have hdetection : c.detection.toValue.Regular (room + 2) :=
    ⟨Nat.succ_pos _, by simp, count_regular hc.minConfidence, hpriority, trivial⟩
  have hparser : c.parserCheck.toValue.Regular (room + 2) :=
    ⟨Nat.succ_pos _, by simp, trivial, trivial, count_regular hc.parserTimeout,
      trivial⟩
  have hlive : c.live.toValue.Regular (room + 2) :=
    ⟨Nat.succ_pos _, by simp, trivial, trivial, hstrings _, trivial, trivial,
      hattempts, count_regular hc.interval, count_regular hc.readyTimeout,
      count_regular hc.requestTimeout, count_regular hc.shutdownTimeout, trivial⟩
  exact ⟨Nat.succ_pos _, by simp, hdetection, hparser, hlive,
    ⟨Nat.succ_pos _, by simp, hstrings _, trivial⟩, trivial⟩

/-- Reads a configuration from a text. -/
def ofText? (text : String) : Option Config :=
  (Json.read text.toList).bind (ofValue? .json)

/-- Where all settings are kept, nothing is lost. -/
theorem only_all (c : Config) : c.only (fun _ => true) = c := rfl

/-- A configuration that is given in part has the settings that are given, and the
defaults of all others.  Given as a whole it is read back. -/
theorem reads_only (hc : c.InRange) :
    (∀ chosen w, Written chosen c w →
      ofValue? .json w = some (c.only chosen) ∧
      (∀ text, Json.read text.toList = some w →
        ofText? text = some (c.only chosen)) ∧
      (w.Regular maxDepth → ofText? w.compact = some (c.only chosen) ∧
        ofText? w.pretty = some (c.only chosen))) ∧
    ofValue? .json c.toValue = some c ∧ ofText? c.toValue.compact = some c ∧
      ofText? c.toValue.pretty = some c := by
  have hread {chosen : Setting → Bool} {w : Value} (hw : Written chosen c w) :=
    ofValue?_of_written .json hc hw
  have htexts {chosen : Setting → Bool} {w : Value} (hw : Written chosen c w)
      (hregular : w.Regular maxDepth) : ofText? w.compact = some (c.only chosen) ∧
        ofText? w.pretty = some (c.only chosen) := by
    rw [ofText?, ofText?, read_compact hregular, read_pretty hregular]
    exact ⟨hread (hw.canonical hregular), hread (hw.canonical hregular)⟩
  have hall : Written (fun _ => true) c c.toValue := by
    rw [toValue_eq_partOf]
    exact written_partOf (by decide) fun s hs => absurd s.mem_all hs
  have hwhole := hread hall
  have hwholeTexts := htexts hall (regular_toValue hc 124)
  rw [only_all] at hwhole hwholeTexts
  refine ⟨fun chosen w hw => ⟨hread hw, fun text htext => ?_, htexts hw⟩, hwhole,
    hwholeTexts⟩
  rw [ofText?, htext]
  exact hread hw

/-- A configuration with the largest numbers of attempts and of milliseconds. -/
def sample : Config where
  detection := ⟨3, [.deploy, .deploy]⟩
  parserCheck := ⟨false, "", 0⟩
  live := { LiveSettings.default with
    attempts := 0xFFFFFFFF, interval := 0xFFFFFFFFFFFFFFFF }
  endpoints := []

theorem sample_inRange : sample.InRange := by
  constructor <;> decide

/-- The settings of the sample that are given. -/
def sampleChosen (k : Setting) : Bool := k ∈ [Setting.priority, .attempts, .interval]

/-- The sections in which they are given, with fields of other names among them.  The
section on Flask is there without its setting. -/
def sampleBody : Section → Value
  | .live =>
    .object (Section.live.fields sampleChosen sample ++ [("retries", Value.null)]).reverse
  | s => .object (s.fields sampleChosen sample)

/-- The sections in the opposite order, behind one of another name. -/
def sampleFields : List (String × Value) :=
  ([Section.detection, .live, .flask].map (fun s : Section => (s.name, sampleBody s)) ++
    [("Detection", Value.array [])]).reverse

theorem written_sample : Written sampleChosen sample (.object sampleFields) := by
  refine @Written.object _ _ [.detection, .live, .flask] sampleBody _ (by decide) ?_ ?_ ?_
  · intro s hs
    cases s with
    | parserCheck => decide
    | detection | live | flask => exact absurd (by decide) hs
  · intro s _
    cases s with
    | live =>
      exact ⟨_, rfl, [("retries", Value.null)],
        List.forall_mem_singleton.mpr (by decide), List.reverse_perm _⟩
    | detection | parserCheck | flask => exact ⟨_, rfl, .refl _ _⟩
  · exact ⟨[("Detection", Value.array [])],
      List.forall_mem_singleton.mpr (by decide), List.reverse_perm _⟩

theorem reads_only_of_sample :
    sample.InRange ∧ Written sampleChosen sample (.object sampleFields) ∧
      ofValue? .json (.object sampleFields) = some { default with
        detection := ⟨2, [.deploy, .deploy]⟩
        live := { LiveSettings.default with
          attempts := 0xFFFFFFFF, interval := 0xFFFFFFFFFFFFFFFF } } ∧
      ofText? sample.toValue.pretty = some sample := by
  have h := reads_only sample_inRange
  exact ⟨sample_inRange, written_sample, (h.1 _ _ written_sample).1, h.2.2.2⟩

end Config

end

end Preflight
