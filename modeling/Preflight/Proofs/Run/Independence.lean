import Preflight.Proofs.Relevance
import Preflight.Proofs.Run.Reading

/-!
# What runs do not depend on

Two runs are compared part by part: what they read (`FileSystem.script`), how
the profile is resolved (`ProfileInfo.resolve`), what the rules find
(`Rule.evaluate_congr`), what the parser adds and what the probe adds.

* `verify_of_sameText`: where a script lies and how its text is written in bytes
  shows in what the report says of the file, and nowhere else.
* `verify_of_agreesOn`: settings that are of no use for the target do not show
  at all, neither in the report nor in what is done to the surroundings.
-/

namespace Preflight

/-! ## The place and the bytes of a script -/

/-- What a probe finds does not name the application. -/
theorem LiveSettings.diagnostics_run (s : LiveSettings) (host : Host)
    (probes : List Probe) (app other : String) :
    (s.run host probes other).diagnostics = (s.run host probes app).diagnostics := by
  unfold run
  cases host.launch with
  | error reason => rfl
  | ok started =>
    show (if _ then _ else _ : LiveResult).diagnostics =
      (if _ then _ else _ : LiveResult).diagnostics
    split <;> rfl

section

variable {parser otherParser : Parser} {request : Request} {otherPath : String}

/-- What the parser adds is decided by its outcome. -/
theorem Verification.parserPart_of_outcome (config : Config)
    (houtcome : otherParser otherPath = parser request.path) :
    ((start { request with path := otherPath } config).parserPart otherParser).1 =
      ((start request config).parserPart parser).1 := by
  have hwants : (start { request with path := otherPath } config).wantsParser =
      (start request config).wantsParser := rfl
  unfold parserPart
  rw [hwants]
  show (if _ then ([(otherParser otherPath).diagnostic], _) else _).1 =
    (if _ then ([(parser request.path).diagnostic], _) else _).1
  rw [houtcome]
  split <;> rfl

theorem Verification.probePart_of_path (request : Request) (otherPath : String)
    (config : Config) (host : Option Host) :
    ((start { request with path := otherPath } config).probePart host).1 =
      ((start request config).probePart host).1 := by
  have hwants : (start { request with path := otherPath } config).wantsProbe =
      (start request config).wantsProbe := rfl
  cases host with
  | none => rfl
  | some host =>
    have hfound := config.live.diagnostics_run host Probe.stock request.path
      otherPath
    unfold probePart
    simp only [hwants]
    split
    · exact hfound
    · rfl

/-- Two files with the same text give the same report, but for what it says of
the file itself. -/
theorem verify_of_sameText {files others : FileSystem} (host : Option Host)
    (config : Config) (tool : Tool) {bytes otherBytes : List UInt8}
    (hfile : files request.path = .file bytes)
    (hother : others otherPath = .file otherBytes)
    (htext : decodeScript otherBytes = decodeScript bytes)
    (houtcome : otherParser otherPath = parser request.path) :
    let report := (verify files parser host request config tool).1
    let other := (verify others otherParser host
      { request with path := otherPath } config tool).1
    report.script = Script.info ⟨request.path, bytes⟩ ∧
      other = { report with script := Script.info ⟨otherPath, otherBytes⟩ } := by
  intro report other
  have hread := FileSystem.script_of_file hfile
  have hotherRead := FileSystem.script_of_file hother
  rw [htext] at hotherRead
  cases hdecode : decodeScript bytes with
  | none =>
    rw [hdecode] at hread hotherRead
    have hreport : report = _ := congrArg Prod.fst
      (verify_of_refusal files parser host request config tool hread)
    have hsame : other = _ := congrArg Prod.fst
      (verify_of_refusal others otherParser host
        { request with path := otherPath } config tool hotherRead)
    rw [hsame, hreport]
    exact ⟨rfl, rfl⟩
  | some text =>
    rw [hdecode] at hread hotherRead
    have hreport : report = _ := congrArg Prod.fst
      (verify_of_script files parser host request config tool hread)
    have hsame : other = _ := congrArg Prod.fst
      (verify_of_script others otherParser host
        { request with path := otherPath } config tool hotherRead)
    have hfound (info : ProfileInfo) :
        Rule.evaluate Rule.catalog
            (.ofProfile { request with path := otherPath } config.endpoints text
              info) .empty =
          Rule.evaluate Rule.catalog
            (.ofProfile request config.endpoints text info) .empty := by
      apply Rule.evaluate_congr
      exact ⟨rfl, rfl, rfl, fun _ => rfl⟩
    have hparsed := Verification.parserPart_of_outcome config houtcome
    have hprobed :=
      Verification.probePart_of_path request otherPath config host
    simp only [hfound, hparsed, hprobed] at hsame
    rw [hsame, hreport]
    exact ⟨rfl, rfl⟩

/-- An application in UTF-8 behind a mark, and the same in UTF-16 elsewhere, on a
server that never answers. -/
theorem verify_of_sameText_of_marks :
    let text := "app = Flask(__name__)".toList
    let utf8 := [0xEF, 0xBB, 0xBF] ++ Utf8.encode text
    let utf16 := [0xFE, 0xFF] ++ Utf16.encode .bigEndian text
    let host : Host := ⟨.ok (), fun _ => .error "refused", .ok (), .ok true⟩
    let tool : Tool := ⟨"preflight", "1", none⟩
    let report := (verify (fun _ => .file utf8) (fun _ => .valid) host
      ⟨"app.py", .flask, .none⟩ .default tool).1
    let other := (verify (fun _ => .file utf16) (fun _ => .valid) host
      ⟨"src/app.py", .flask, .none⟩ .default tool).1
    decodeScript utf8 = some text ∧ decodeScript utf16 = some text ∧
      other = { report with script := Script.info ⟨"src/app.py", utf16⟩ } := by
  intro text utf8 utf16 host tool report other
  have hutf8 : decodeScript utf8 = some text := by decide +kernel
  have hutf16 : decodeScript utf16 = some text := by decide +kernel
  have hsame := @verify_of_sameText (fun _ => .valid) (fun _ => .valid)
    ⟨"app.py", .flask, .none⟩ "src/app.py" (fun _ => .file utf8)
    (fun _ => .file utf16) host .default tool utf8 utf16 rfl rfl
    (hutf16.trans hutf8.symm) rfl
  exact ⟨hutf8, hutf16, hsame.2⟩

end

/-! ## Settings that are of no use -/

/-- The other request and configuration agree on all that is of use for the
target. -/
structure Request.AgreesOn (request : Request) (config : Config)
    (other : Request) (otherConfig : Config) : Prop where
  path : other.path = request.path
  target : other.target = request.target
  /-- Only PDQ scripts have a profile. -/
  profile : request.target = .pdq →
    other.overrides.profile = request.overrides.profile
  /-- A profile is detected only if none is named. -/
  detection : request.target = .pdq → request.overrides.profile = none →
    otherConfig.detection = config.detection
  /-- The external parser reads PowerShell. -/
  skipSyntaxCheck : request.target ≠ .flask →
    other.overrides.skipSyntaxCheck = request.overrides.skipSyntaxCheck
  parserCheck : request.target ≠ .flask →
    otherConfig.parserCheck = config.parserCheck
  /-- Only Flask applications are started and have endpoints. -/
  skipLiveCheck : request.target = .flask →
    other.overrides.skipLiveCheck = request.overrides.skipLiveCheck
  live : request.target = .flask → otherConfig.live = config.live
  endpoints : request.target = .flask → otherConfig.endpoints = config.endpoints

namespace Request.AgreesOn

variable {request other : Request} {config otherConfig : Config}

theorem resolve_eq (h : request.AgreesOn config other otherConfig)
    (text : List Char) :
    ProfileInfo.resolve other.target other.overrides.profile
        otherConfig.detection text =
      ProfileInfo.resolve request.target request.overrides.profile
        config.detection text := by
  unfold ProfileInfo.resolve
  rw [h.target]
  split
  · rfl
  · rename_i htarget
    have hpdq : request.target = .pdq := Decidable.not_not.mp htarget
    rw [h.profile hpdq]
    cases hnamed : request.overrides.profile with
    | some p => rfl
    | none => rw [h.detection hpdq hnamed]

theorem parserPart_eq (h : request.AgreesOn config other otherConfig)
    (parser : Parser) :
    (Verification.start other otherConfig).parserPart parser =
      (Verification.start request config).parserPart parser := by
  have hwants : (Verification.start other otherConfig).wantsParser =
      (Verification.start request config).wantsParser := by
    show (other.target.isPowerShell && !other.overrides.skipSyntaxCheck &&
        otherConfig.parserCheck.enabled) =
      (request.target.isPowerShell && !request.overrides.skipSyntaxCheck &&
        config.parserCheck.enabled)
    rw [h.target]
    by_cases hflask : request.target = .flask
    · rw [hflask]
      rfl
    · rw [h.skipSyntaxCheck hflask, h.parserCheck hflask]
  have hpath : (Verification.start other otherConfig).request.path =
      (Verification.start request config).request.path := h.path
  unfold Verification.parserPart
  rw [hwants, hpath]

theorem probePart_eq (h : request.AgreesOn config other otherConfig)
    (host : Option Host) :
    (Verification.start other otherConfig).probePart host =
      (Verification.start request config).probePart host := by
  cases host with
  | none => rfl
  | some host =>
    by_cases hflask : request.target = .flask
    · have hwants : (Verification.start other otherConfig).wantsProbe =
          (Verification.start request config).wantsProbe := by
        show (other.target == .flask && !other.overrides.skipLiveCheck &&
            otherConfig.live.enabled) =
          (request.target == .flask && !request.overrides.skipLiveCheck &&
            config.live.enabled)
        rw [h.target, h.skipLiveCheck hflask, h.live hflask]
      have hlive : (Verification.start other otherConfig).config.live =
          (Verification.start request config).config.live := h.live hflask
      have hpath : (Verification.start other otherConfig).request.path =
          (Verification.start request config).request.path := h.path
      unfold Verification.probePart
      simp only [hwants, hlive, hpath]
    · have hidle {v : Verification} (hv : v.request.target ≠ .flask) :
          v.probePart (some host) = ([], []) := by
        unfold Verification.probePart
        exact if_neg fun hwants => hv (Verification.eq_flask_of_wantsProbe hwants)
      have hotherIdle := hidle (v := .start other otherConfig)
        fun htarget => hflask (h.target ▸ htarget)
      have hrequestIdle := hidle (v := .start request config) hflask
      rw [hotherIdle, hrequestIdle]

/-- The catalog finds the same. -/
theorem evaluate_eq (h : request.AgreesOn config other otherConfig)
    (text : List Char) (info : ProfileInfo) :
    Rule.evaluate Rule.catalog
        (.ofProfile other otherConfig.endpoints text info) .empty =
      Rule.evaluate Rule.catalog
        (.ofProfile request config.endpoints text info) .empty := by
  apply Rule.evaluate_congr
  exact ⟨rfl, h.target, rfl, h.endpoints⟩

end Request.AgreesOn

/-- Runs that agree on what is of use for their target give the same report and
do the same to their surroundings. -/
theorem verify_of_agreesOn (files : FileSystem) (parser : Parser)
    (host : Option Host) (tool : Tool) {request other : Request}
    {config otherConfig : Config}
    (h : request.AgreesOn config other otherConfig) :
    verify files parser host other otherConfig tool =
      verify files parser host request config tool := by
  cases hread : files.script request.path with
  | error refusal =>
    have hother : files.script other.path = .error refusal := h.path ▸ hread
    rw [verify_of_refusal files parser host request config tool hread,
      verify_of_refusal files parser host other otherConfig tool hother, h.target]
  | ok script =>
    have hother : files.script other.path = .ok script := h.path ▸ hread
    rw [verify_of_script files parser host request config tool hread,
      verify_of_script files parser host other otherConfig tool hother]
    simp only [h.resolve_eq, h.evaluate_eq, h.parserPart_eq, h.probePart_eq]
    rw [h.target]

/-- A PDQ script whose profile is named is not searched for one, however the
detection is set, and nothing is started for it. -/
theorem verify_of_agreesOn_of_named_profile :
    let files : FileSystem := fun _ => .file (Utf8.encode "msiexec /quiet".toList)
    let parser : Parser := fun _ => .valid
    let tool : Tool := ⟨"preflight", "1", none⟩
    let request : Request := ⟨"setup.ps1", .pdq, ⟨some .connect, false, false⟩⟩
    let other : Request := ⟨"setup.ps1", .pdq, ⟨some .connect, true, false⟩⟩
    let config : Config :=
      ⟨⟨0, [.deploy]⟩, .default, ⟨false, "", [], "", "", 0, 0, 0, 0, 0⟩, []⟩
    request.AgreesOn .default other config ∧
      verify files parser none other config tool =
        verify files parser none request .default tool := by
  intro files parser tool request other config
  have hagree : request.AgreesOn .default other config :=
    { path := rfl
      target := rfl
      profile := fun _ => rfl
      detection := fun _ hnone => nomatch hnone
      skipSyntaxCheck := fun _ => rfl
      parserCheck := fun _ => rfl
      skipLiveCheck := fun hflask => nomatch hflask
      live := fun hflask => nomatch hflask
      endpoints := fun hflask => nomatch hflask }
  exact ⟨hagree, verify_of_agreesOn files parser none tool hagree⟩

end Preflight
