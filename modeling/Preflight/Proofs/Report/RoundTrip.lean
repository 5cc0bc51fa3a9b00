import Preflight.Proofs.Json.Restating
import Preflight.Report.Json

/-!
# Reports that are read back

Each record is read from every document that says what the record's own does: the
lemmas named `recovers`.  The documents can be written and read as texts: the
lemmas named `regular`.

The main result, `Report.roundTrip`, is about reports whose numbers fit the
types that they have in data (`Report.InRange`).
-/

namespace Preflight

open Json

/-! ## Names -/

theorem RuleId.ofKey?_key (id : RuleId) : ofKey? id.key = some id := by
  cases id <;> rfl

theorem Severity.ofKey?_key (s : Severity) : ofKey? s.key = some s := by
  cases s <;> rfl

theorem Status.ofKey?_key (s : Status) : ofKey? s.key = some s := by
  cases s <;> rfl

theorem Target.ofKey?_key (t : Target) : ofKey? t.key = some t := by
  cases t <;> rfl

theorem Profile.ofKey?_key (p : Profile) : ofKey? p.key = some p := by
  cases p <;> rfl

theorem ProfileSource.ofKey?_key (s : ProfileSource) :
    ofKey? s.key = some s := by
  cases s <;> rfl

theorem Stage.ofKey?_key (s : Stage) : ofKey? s.key = some s := by
  cases s <;> rfl

/-! ## Numbers -/

/-- Scores are 64-bit numbers. -/
structure Scores.InRange (s : Scores) : Prop where
  inventory : Number.fitsWord s.inventory
  deploy : Number.fitsWord s.deploy
  connect : Number.fitsWord s.connect

/-- Counts are 64-bit numbers, exit codes 32-bit numbers with a sign. -/
structure Verdict.InRange (v : Verdict) : Prop where
  errorCount : Number.fitsWord v.errorCount
  warningCount : Number.fitsWord v.warningCount
  infoCount : Number.fitsWord v.infoCount
  exitCode : -0x80000000 ≤ v.exitCode ∧ v.exitCode ≤ 0x7FFFFFFF

/-- The numbers of the report fit their types. -/
structure Report.InRange (r : Report) : Prop where
  size : Number.fitsWord r.script.size
  scores : ∀ s ∈ r.profile.scores, s.InRange
  verdict : r.verdict.InRange

theorem count_recovers {n : Nat} (hn : Number.fitsWord n) :
    Recovers (Value.natIn? 64) (.number (.int n)) n :=
  Recovers.natIn (of_decide_eq_true hn)

theorem count_regular {n : Nat} (hn : Number.fitsWord n) :
    Number.IsWord n := by
  have hlt : n < 0x10000000000000000 := of_decide_eq_true hn
  unfold Number.IsWord
  omega

/-! ## Fields that may be null -/

section

variable {α : Type} {toValue : α → Value} {a? : Option α}

theorem nullable_of_optionValue {read? : Value → Option α}
    {found : Option Value} (hfound : (optionValue toValue a?).Found found)
    (hread : ∀ a ∈ a?, Recovers read? (toValue a) a)
    (hne : ∀ a, toValue a ≠ .null) :
    nullable read? found = some a? := by
  cases a? with
  | none => exact nullable_of_found_null hfound
  | some a => exact nullable_of_found (hread a rfl) (hne a) hfound

theorem regular_optionValue {room : Nat}
    (h : ∀ a ∈ a?, (toValue a).Regular room) :
    (optionValue toValue a?).Regular room := by
  cases a? with
  | none => trivial
  | some a => exact h a rfl

theorem regularItems_map {room : Nat} {l : List α}
    (h : ∀ a, (toValue a).Regular room) :
    Value.RegularItems room (l.map toValue) := by
  induction l with
  | nil => trivial
  | cons a l ih => exact ⟨h a, ih⟩

end

/-! ## Diagnostics

Each record is read field by field: the cases of what is found are one for each
name, and every field has its own reader. -/

theorem RuleId.recovers (id : RuleId) :
    Recovers ofValue? (.string id.key) id := .choice .json id.ofKey?_key

theorem Severity.recovers (s : Severity) :
    Recovers ofValue? (.string s.key) s := .choice .json s.ofKey?_key

namespace Diagnostic

theorem recovers (d : Diagnostic) : Recovers ofValue? d.toValue d := by
  refine .record rfl (by decide) fun found hfound => ?_
  rcases hfound with _ | ⟨hseverity, _ | ⟨hmessage, _ | ⟨hid, _ | _⟩⟩⟩
  have hseverity := required_of_found d.severity.recovers nofun hseverity
  have hmessage := required_of_found (.string _) nofun hmessage
  have hid := nullable_of_optionValue hid (fun id _ => id.recovers)
    (fun _ => nofun)
  dsimp only
  rw [hseverity, hmessage, hid]
  rfl

theorem regular (d : Diagnostic) (room : Nat) :
    d.toValue.Regular (room + 1) := by
  have hid : (optionValue (.string ·.key) d.ruleId).Regular room :=
    regular_optionValue fun _ _ => trivial
  exact ⟨room.succ_pos, by simp, trivial, trivial, hid, trivial⟩

end Diagnostic

namespace Diagnostics

theorem recovers (ds : Diagnostics) : Recovers ofValue? ds.toValue ds := by
  refine .record rfl (by decide) fun found hfound => ?_
  rcases hfound with _ | ⟨herrors, _ | ⟨hwarnings, _ | ⟨hinfo, _ | _⟩⟩⟩
  have hlist (l : List Diagnostic) := Recovers.list Diagnostic.recovers l
  have herrors := required_of_found (hlist ds.errors) nofun herrors
  have hwarnings := required_of_found (hlist ds.warnings) nofun hwarnings
  have hinfo := required_of_found (hlist ds.info) nofun hinfo
  dsimp only
  rw [herrors, hwarnings, hinfo]
  rfl

theorem regular (ds : Diagnostics) (room : Nat) :
    ds.toValue.Regular (room + 3) := by
  have hlist (l : List Diagnostic) :
      (Value.array (l.map Diagnostic.toValue)).Regular (room + 2) :=
    ⟨Nat.succ_pos _, regularItems_map fun d => d.regular room⟩
  exact ⟨Nat.succ_pos _, by simp, hlist ds.errors, hlist ds.warnings,
    hlist ds.info, trivial⟩

end Diagnostics

namespace Verdict

variable {v : Verdict}

theorem recovers (hv : v.InRange) : Recovers ofValue? v.toValue v := by
  refine .record rfl (by decide) fun found hfound => ?_
  rcases hfound with _ | ⟨hstatus, _ | ⟨herrors, _ | ⟨hwarnings,
    _ | ⟨hinfo, _ | ⟨hexit, _ | _⟩⟩⟩⟩⟩
  have hstatus := required_of_found (.choice .json v.status.ofKey?_key) nofun hstatus
  have herrors := required_of_found (count_recovers hv.errorCount) nofun herrors
  have hwarnings :=
    required_of_found (count_recovers hv.warningCount) nofun hwarnings
  have hinfo := required_of_found (count_recovers hv.infoCount) nofun hinfo
  have hexit :=
    required_of_found (.intIn hv.exitCode.1 hv.exitCode.2) nofun hexit
  dsimp only
  rw [hstatus, herrors, hwarnings, hinfo, hexit]
  rfl

theorem regular (hv : v.InRange) (room : Nat) :
    v.toValue.Regular (room + 1) := by
  have hexit : Number.IsWord v.exitCode := by
    have hrange := hv.exitCode
    unfold Number.IsWord
    omega
  exact ⟨room.succ_pos, by simp, trivial, count_regular hv.errorCount,
    count_regular hv.warningCount, count_regular hv.infoCount, hexit, trivial⟩

end Verdict

/-! ## Parts of reports -/

theorem Target.recovers (t : Target) :
    Recovers ofValue? (.string t.key) t := .choice .json t.ofKey?_key

namespace Scores

variable {s : Scores}

theorem recovers (hs : s.InRange) : Recovers ofValue? s.toValue s := by
  refine .record rfl (by decide) fun found hfound => ?_
  rcases hfound with _ | ⟨hinventory, _ | ⟨hdeploy, _ | ⟨hconnect, _ | _⟩⟩⟩
  have hinventory :=
    required_of_found (count_recovers hs.inventory) nofun hinventory
  have hdeploy := required_of_found (count_recovers hs.deploy) nofun hdeploy
  have hconnect := required_of_found (count_recovers hs.connect) nofun hconnect
  dsimp only
  rw [hinventory, hdeploy, hconnect]
  rfl

theorem regular (hs : s.InRange) (room : Nat) :
    s.toValue.Regular (room + 1) :=
  ⟨room.succ_pos, by simp, count_regular hs.inventory, count_regular hs.deploy,
    count_regular hs.connect, trivial⟩

end Scores

namespace Tool

theorem recovers (t : Tool) : Recovers ofValue? t.toValue t := by
  refine .record rfl (by decide) fun found hfound => ?_
  rcases hfound with _ | ⟨hname, _ | ⟨hversion, _ | ⟨hcommit, _ | _⟩⟩⟩
  have hname := required_of_found (.string _) nofun hname
  have hversion := required_of_found (.string _) nofun hversion
  have hcommit := nullable_of_optionValue hcommit (fun s _ => .string s)
    (fun _ => nofun)
  dsimp only
  rw [hname, hversion, hcommit]
  rfl

theorem regular (t : Tool) (room : Nat) : t.toValue.Regular (room + 1) := by
  have hcommit : (optionValue .string t.commit).Regular room :=
    regular_optionValue fun _ _ => trivial
  exact ⟨room.succ_pos, by simp, trivial, trivial, hcommit, trivial⟩

end Tool

namespace ScriptHash

theorem recovers (h : ScriptHash) : Recovers ofValue? h.toValue h := by
  refine .record rfl (by decide) fun found hfound => ?_
  rcases hfound with _ | ⟨halgorithm, _ | ⟨hvalue, _ | _⟩⟩
  have halgorithm := required_of_found (.string _) nofun halgorithm
  have hvalue := required_of_found (.string _) nofun hvalue
  dsimp only
  rw [halgorithm, hvalue]
  rfl

theorem regular (h : ScriptHash) (room : Nat) :
    h.toValue.Regular (room + 1) :=
  ⟨room.succ_pos, by simp, trivial, trivial, trivial⟩

end ScriptHash

namespace ScriptInfo

variable {s : ScriptInfo}

theorem recovers (hs : Number.fitsWord s.size) :
    Recovers ofValue? s.toValue s := by
  refine .record rfl (by decide) fun found hfound => ?_
  rcases hfound with _ | ⟨hpath, _ | ⟨hsize, _ | ⟨hhash, _ | _⟩⟩⟩
  have hpath := required_of_found (.string _) nofun hpath
  have hsize := required_of_found (count_recovers hs) nofun hsize
  have hhash := nullable_of_optionValue hhash (fun h _ => h.recovers)
    (fun _ => nofun)
  dsimp only
  rw [hpath, hsize, hhash]
  rfl

theorem regular (hs : Number.fitsWord s.size) (room : Nat) :
    s.toValue.Regular (room + 2) := by
  have hhash : (optionValue ScriptHash.toValue s.hash).Regular (room + 1) :=
    regular_optionValue fun h _ => h.regular room
  exact ⟨Nat.succ_pos _, by simp, trivial, count_regular hs, hhash, trivial⟩

end ScriptInfo

namespace ProfileInfo

variable {p : ProfileInfo}

theorem recovers (hp : ∀ s ∈ p.scores, s.InRange) :
    Recovers ofValue? p.toValue p := by
  refine .record rfl (by decide) fun found hfound => ?_
  rcases hfound with _ | ⟨hprofile, _ | ⟨hsource, _ | ⟨hscores, _ | _⟩⟩⟩
  have hprofile := nullable_of_optionValue hprofile
    (fun q _ => .choice .json q.ofKey?_key) (fun _ => nofun)
  have hsource := required_of_found (.choice .json p.source.ofKey?_key) nofun hsource
  have hscores := nullable_of_optionValue hscores
    (fun s hs => Scores.recovers (hp s hs)) (fun _ => nofun)
  dsimp only
  rw [hprofile, hsource, hscores]
  rfl

theorem regular (hp : ∀ s ∈ p.scores, s.InRange) (room : Nat) :
    p.toValue.Regular (room + 2) := by
  have hprofile :
      (optionValue (.string ·.key) p.profile).Regular (room + 1) :=
    regular_optionValue fun _ _ => trivial
  have hscores : (optionValue Scores.toValue p.scores).Regular (room + 1) :=
    regular_optionValue fun s hs => Scores.regular (hp s hs) room
  exact ⟨Nat.succ_pos _, by simp, hprofile, trivial, hscores, trivial⟩

end ProfileInfo

namespace RulesInfo

theorem recovers (r : RulesInfo) : Recovers ofValue? r.toValue r := by
  refine .record rfl (by decide) fun found hfound => ?_
  rcases hfound with _ | ⟨hversion, _ | ⟨hevaluated, _ | ⟨hfailed, _ | _⟩⟩⟩
  have hids (l : List RuleId) := Recovers.list RuleId.recovers l
  have hversion := required_of_found (.string _) nofun hversion
  have hevaluated :=
    required_of_found (hids r.coverage.evaluated) nofun hevaluated
  have hfailed := required_of_found (hids r.coverage.failed) nofun hfailed
  dsimp only
  rw [hversion, hevaluated, hfailed]
  rfl

theorem regular (r : RulesInfo) (room : Nat) :
    r.toValue.Regular (room + 2) := by
  have hids (l : List RuleId) :
      (Value.array (l.map fun id => .string id.key)).Regular (room + 1) :=
    ⟨Nat.succ_pos _, regularItems_map fun _ => trivial⟩
  exact ⟨Nat.succ_pos _, by simp, trivial, hids r.coverage.evaluated,
    hids r.coverage.failed, trivial⟩

end RulesInfo

/-! ## Reports -/

namespace Report

variable {r : Report}

theorem recovers (hr : r.InRange) : Recovers ofValue? r.toValue r := by
  refine .record rfl (by decide) fun found hfound => ?_
  rcases hfound with _ | ⟨hversion, _ | ⟨htool, _ | ⟨hscript, _ | ⟨htarget,
    _ | ⟨hprofile, _ | ⟨hrules, _ | ⟨hdiagnostics, _ | ⟨hverdict,
    _ | ⟨hstage, _ | _⟩⟩⟩⟩⟩⟩⟩⟩⟩
  have hversion := required_of_found (.string _) nofun hversion
  have htool := required_of_found r.tool.recovers nofun htool
  have hscript := required_of_found (ScriptInfo.recovers hr.size) nofun hscript
  have htarget := required_of_found r.target.recovers nofun htarget
  have hprofile :=
    required_of_found (ProfileInfo.recovers hr.scores) nofun hprofile
  have hrules := required_of_found r.rules.recovers nofun hrules
  have hdiagnostics :=
    required_of_found r.diagnostics.recovers nofun hdiagnostics
  have hverdict := required_of_found (Verdict.recovers hr.verdict) nofun hverdict
  have hstage :=
    required_of_found (.choice .json r.stage.ofKey?_key) nofun hstage
  dsimp only
  rw [hversion, htool, hscript, htarget, hprofile, hrules, hdiagnostics,
    hverdict, hstage]
  rfl

theorem regular (hr : r.InRange) (room : Nat) :
    r.toValue.Regular (room + 4) :=
  ⟨Nat.succ_pos _, by simp, trivial, r.tool.regular _,
    ScriptInfo.regular hr.size _, trivial, ProfileInfo.regular hr.scores _,
    r.rules.regular _, r.diagnostics.regular _, Verdict.regular hr.verdict _,
    trivial, trivial⟩

/-- Reads a report from a text. -/
def ofText? (text : String) : Option Report :=
  (Json.read text.toList).bind ofValue?

/-- The report is read from the texts of every document that says the same. -/
theorem ofText?_of_restates {w : Value} (hr : r.InRange)
    (h : r.toValue.Restates w) (hw : w.Regular maxDepth) :
    ofText? w.compact = some r ∧ ofText? w.pretty = some r := by
  have hread := recovers hr w.canonical (h.canonical hw)
  unfold ofText?
  rw [read_compact hw, read_pretty hw]
  exact ⟨hread, hread⟩

/-- A report is read back from its own texts, and from every document that says
the same: with the fields of its objects in another order, with other fields
added, and without some that are null. -/
theorem roundTrip (hr : r.InRange) :
    (ofText? r.toValue.compact = some r ∧
      ofText? r.toValue.pretty = some r) ∧
    ∀ w, r.toValue.Restates w →
      ofValue? w = some r ∧
      (∀ text, Json.read text.toList = some w → ofText? text = some r) ∧
      (w.Regular maxDepth →
        ofText? w.compact = some r ∧ ofText? w.pretty = some r) := by
  have hself : r.toValue.Restates r.toValue := .refl _
  refine ⟨ofText?_of_restates hr hself (regular hr 123), fun w hw => ?_⟩
  have hvalue := recovers hr w hw
  refine ⟨hvalue, fun text hread => ?_, ofText?_of_restates hr hw⟩
  unfold ofText?
  rw [hread]
  exact hvalue

/-- A report with quotes, a control character, and the largest size. -/
def sample : Report where
  schemaVersion := reportVersion
  tool := ⟨"psverify", "1.0.0", none⟩
  script := ⟨"new \"tool\".ps1", 0xFFFFFFFFFFFFFFFF, none⟩
  target := .pdq
  profile := ⟨some .deploy, .detected, some ⟨0, 5, 1⟩⟩
  rules := ⟨"1", ⟨[.embeddedSecret], []⟩⟩
  diagnostics := ⟨[⟨.error, "a\x01b", some .embeddedSecret⟩],
    [⟨.warning, "", none⟩], []⟩
  verdict := ⟨.fail, 1, 1, 0, -1⟩
  stage := .summarized

theorem sample_inRange : sample.InRange where
  size := by decide
  scores := fun s hs => by
    cases hs
    exact ⟨by decide, by decide, by decide⟩
  verdict := ⟨by decide, by decide, by decide, by decide⟩

/-- The fields of the sample, with the tool's in the opposite order and without its
commit, which is null. -/
def sampleFields : List (String × Value) :=
  [("schema_version", .string sample.schemaVersion),
    ("tool", .object [("version", .string "1.0.0"),
      ("name", .string "psverify")]),
    ("script", sample.script.toValue), ("target", .string sample.target.key),
    ("profile", sample.profile.toValue), ("rules", sample.rules.toValue),
    ("diagnostics", sample.diagnostics.toValue),
    ("verdict", sample.verdict.toValue), ("stage", .string sample.stage.key)]

/-- The sample with a comment, in the opposite order. -/
def sampleRestated : Value :=
  .object (sampleFields ++ [("comment", Value.array [])]).reverse

theorem sample_restates : sample.toValue.Restates sampleRestated := by
  have htool : sample.tool.toValue.Restates
      (.object [("version", .string "1.0.0"), ("name", .string "psverify")]) :=
    .object (.keep _ (.refl _) (.keep _ (.refl _) (.drop _ .nil)))
      (List.forall_mem_nil _) (.swap _ _ _)
  have hcomment (f : String × Value)
      (hf : f ∈ [("comment", Value.array [])]) : f.1 ∉ fieldNames := by
    rw [List.mem_singleton.mp hf]
    decide
  exact .object (.keep _ (.refl _) (.keep _ htool (.refl _))) hcomment
    (List.reverse_perm _)

theorem roundTrip_of_sample :
    ofText? sample.toValue.pretty = some sample ∧
    ofValue? sampleRestated = some sample := by
  have h := roundTrip sample_inRange
  exact ⟨h.1.2, (h.2 sampleRestated sample_restates).1⟩

end Report

end Preflight
