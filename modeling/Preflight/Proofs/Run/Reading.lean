import Preflight.Proofs.Run.Whole

/-!
# What a run reads

`FileSystem.script` is all that a run takes from the file system: the script's
text with what is known of the file, or the refusal that ends the run.

A whole run is a function of this and of the profile (`verify_of_refusal`,
`verify_of_script`), so runs can be compared without opening a step.
-/

namespace Preflight

/-! ## The file -/

/-- Why a script is not taken over: what is known of the file, and the error
that is recorded. -/
structure Refusal where
  script : ScriptInfo
  message : String
  ruleId : Option RuleId

/-- The error of a refusal. -/
def Refusal.diagnostic (r : Refusal) : Diagnostic :=
  ⟨.error, r.message, r.ruleId⟩

/-- The refusal of a file whose bytes are no text. -/
def Refusal.ofBytes (path : String) (bytes : List UInt8) : Refusal :=
  ⟨Script.info ⟨path, bytes⟩,
    "Script content is not readable text (binary data or unsupported encoding)",
    some .unreadable⟩

/-- What a run reads under a path. -/
def FileSystem.script (files : FileSystem) (path : String) :
    Except Refusal (ScriptInfo × List Char) :=
  match files path with
  | .missing | .directory =>
    .error ⟨.unread path, s!"Script file not found: {path}", none⟩
  | .unreadable osError =>
    .error ⟨.unread path,
      s!"Could not read script: failed to read script: {path}: {osError}", none⟩
  | .file bytes =>
    match decodeScript bytes with
    | none => .error (.ofBytes path bytes)
    | some text => .ok (Script.info ⟨path, bytes⟩, text)

namespace FileSystem

/-- Of a file, its bytes are decoded. -/
theorem script_of_file {files : FileSystem} {path : String} {bytes : List UInt8}
    (hfile : files path = .file bytes) :
    files.script path =
      match decodeScript bytes with
      | none => .error (.ofBytes path bytes)
      | some text => .ok (Script.info ⟨path, bytes⟩, text) := by
  rw [script, hfile]

/-- What is read is the text under the path. -/
theorem script_eq_ok {files : FileSystem} {path : String} {script : ScriptInfo}
    {text : List Char} (h : files.script path = .ok (script, text)) :
    ∃ bytes, files path = .file bytes ∧ decodeScript bytes = some text ∧
      script = Script.info ⟨path, bytes⟩ := by
  cases hentry : files path with
  | missing => rw [FileSystem.script, hentry] at h; cases h
  | directory => rw [FileSystem.script, hentry] at h; cases h
  | unreadable osError => rw [FileSystem.script, hentry] at h; cases h
  | file bytes =>
    rw [script_of_file hentry] at h
    cases hdecode : decodeScript bytes with
    | none => rw [hdecode] at h; cases h
    | some decoded =>
      rw [hdecode] at h
      cases h
      exact ⟨bytes, rfl, hdecode, rfl⟩

theorem text?_of_script {files : FileSystem} {path : String}
    {script : ScriptInfo} {text : List Char}
    (h : files.script path = .ok (script, text)) :
    files.text? path = some text := by
  have ⟨bytes, hfile, hdecode, _⟩ := script_eq_ok h
  rw [text?, hfile]
  exact hdecode

theorem text?_of_refusal {files : FileSystem} {path : String}
    {refusal : Refusal} (h : files.script path = .error refusal) :
    files.text? path = none := by
  rw [text?]
  cases hentry : files path with
  | missing | directory | unreadable osError => rfl
  | file bytes =>
    rw [script_of_file hentry] at h
    cases hdecode : decodeScript bytes with
    | none => exact hdecode
    | some text => rw [hdecode] at h; cases h

end FileSystem

/-- A refusal ends the run. -/
theorem Verification.load_of_refusal {files : FileSystem} {v : Verification}
    {refusal : Refusal} (hstage : v.stage = .notStarted)
    (hscript : v.script = .unread v.request.path)
    (h : files.script v.request.path = .error refusal) :
    v.load files =
      fail { v with script := refusal.script } refusal.message
        refusal.ruleId := by
  rw [load, if_neg (not_not_intro hstage)]
  rw [FileSystem.script] at h
  cases hentry : files v.request.path with
  | missing =>
    rw [hentry] at h
    cases h
    rw [← hscript]
    rfl
  | directory =>
    rw [hentry] at h
    cases h
    rw [← hscript]
    rfl
  | unreadable osError =>
    rw [hentry] at h
    cases h
    simp only [Script.read, hentry, Entry.read, Entry.isFile]
    rw [← hscript]
    rfl
  | file bytes =>
    rw [hentry] at h
    cases hdecode : decodeScript bytes with
    | some text => simp only [hdecode] at h; cases h
    | none =>
      simp only [hdecode] at h
      cases h
      simp only [Script.read, hentry, Entry.read, Entry.isFile, accept,
        Script.text?, hdecode]
      rfl

/-! ## Whole runs -/

section

variable (files : FileSystem) (parser : Parser) (host : Option Host)
  (request : Request) (config : Config) (tool : Tool)

/-- A run that refuses its script reports one error and leaves its surroundings
alone. -/
theorem verify_of_refusal {refusal : Refusal}
    (h : files.script request.path = .error refusal) :
    verify files parser host request config tool =
      (.assemble tool refusal.script request.target .notApplicable
          ⟨catalogVersion, .empty⟩ ⟨[refusal.diagnostic], [], []⟩ .failed,
        []) := by
  rw [verify, Verification.load_of_refusal rfl rfl h]
  cases host <;> rfl

/-- A run that reads a text reports what the rules, the parser and the probe
have to say of it. -/
theorem verify_of_script {script : ScriptInfo} {text : List Char}
    (h : files.script request.path = .ok (script, text)) :
    verify files parser host request config tool =
      (let v := Verification.start request config
       let info := ProfileInfo.resolve request.target request.overrides.profile
        config.detection text
       let found := Rule.evaluate Rule.catalog
        (.ofProfile request config.endpoints text info) .empty
       (.assemble tool script request.target info ⟨catalogVersion, found.1⟩
          ((found.2.pushAll (v.parserPart parser).1).pushAll (v.probePart host).1)
          .summarized,
        (v.parserPart parser).2 ++ (v.probePart host).2)) := by
  have ⟨bytes, hfile, hdecode, hscript⟩ := FileSystem.script_eq_ok h
  rw [hscript, verify_of_file files parser host request config tool hfile hdecode,
    Context.resolve_eq]
  rfl

end

end Preflight
