import Preflight.Target

/-!
# Command-line arguments

Arguments are read from left to right.  Reading stops at the first argument that is wrong, or that
asks for the help text or the version.  A long option takes its value from behind an equals sign or
from the next argument; behind two hyphens every argument is the name of a script.  Options are
given once at most.
-/

namespace Preflight.CommandLine

/-- The form of the report. -/
inductive Format where
  | text
  | json
  deriving DecidableEq, Repr, Inhabited

/-- The format of a given key. -/
def Format.ofKey? : String → Option Format
  | "text" => some .text
  | "json" => some .json
  | _ => none

/-- An option with a value. -/
inductive Setting where
  | profile
  | target
  | format
  | out
  | config
  | commit
  deriving DecidableEq, Repr, Inhabited

/-- The long name of an option. -/
def Setting.name : Setting → String
  | profile => "type"
  | target => "target"
  | format => "format"
  | out => "out"
  | config => "config"
  | commit => "commit"

/-- The option of a given name. -/
def Setting.ofName? (s : String) : Option Setting :=
  [profile, target, format, out, config, commit].find? (·.name == s)

/-- An option without a value. -/
inductive Flag where
  | skipLiveCheck
  | skipSyntaxCheck
  | verbose
  | help
  | version
  deriving DecidableEq, Repr, Inhabited

/-- The long name of a flag. -/
def Flag.name : Flag → String
  | skipLiveCheck => "skip-live-check"
  | skipSyntaxCheck => "skip-syntax-check"
  | verbose => "verbose"
  | help => "help"
  | version => "version"

/-- The flag of a given name. -/
def Flag.ofName? (s : String) : Option Flag :=
  [skipLiveCheck, skipSyntaxCheck, verbose, help, version].find? (·.name == s)

/-- The flag of a given letter. -/
def Flag.ofLetter? : Char → Option Flag
  | 'v' => some verbose
  | 'h' => some help
  | 'V' => some version
  | _ => none

/-- What is wrong with the arguments. -/
inductive UsageError where
  | unknown (argument : String)
  | unwantedValue (flag : Flag)
  | missingValue (setting : Setting)
  | wrongValue (setting : Setting) (value : String)
  | repeatedSetting (setting : Setting)
  | repeatedFlag (flag : Flag)
  | emptyScript
  | missingScript
  deriving DecidableEq, Repr, Inhabited

/-- The error in words. -/
def UsageError.message : UsageError → String
  | unknown argument => s!"unexpected argument '{argument}'"
  | unwantedValue flag => s!"unexpected value for '--{flag.name}'"
  | missingValue setting => s!"a value is required for '--{setting.name}'"
  | wrongValue setting value => s!"invalid value '{value}' for '--{setting.name}'"
  | repeatedSetting setting => s!"the argument '--{setting.name}' cannot be used multiple times"
  | repeatedFlag flag => s!"the argument '--{flag.name}' cannot be used multiple times"
  | emptyScript => "a value is required for '<SCRIPT>'"
  | missingScript => "the script to verify was not provided"

/-- Why reading the arguments stops before their end. -/
inductive Stop where
  | help
  | version
  | usage (e : UsageError)
  deriving DecidableEq, Repr, Inhabited

/-- The arguments that have been read so far. -/
structure Given where
  script : Option String
  profile : Option Profile
  target : Option Target
  format : Option Format
  out : Option String
  config : Option String
  commit : Option String
  skipLiveCheck : Bool
  skipSyntaxCheck : Bool
  verbose : Bool
  deriving DecidableEq, Repr, Inhabited

namespace Given

/-- No arguments. -/
def none : Given :=
  ⟨.none, .none, .none, .none, .none, .none, .none, false, false, false⟩

/-- The option has been given. -/
def has (g : Given) : Setting → Bool
  | .profile => g.profile.isSome
  | .target => g.target.isSome
  | .format => g.format.isSome
  | .out => g.out.isSome
  | .config => g.config.isSome
  | .commit => g.commit.isSome

/-- Takes the value of an option.  Paths are not empty. -/
def withValue? (g : Given) (value : String) : Setting → Option Given
  | .profile => (Profile.ofKey? value).map fun p => { g with profile := some p }
  | .target => (Target.ofKey? value).map fun t => { g with target := some t }
  | .format => (Format.ofKey? value).map fun f => { g with format := some f }
  | .out => if value.isEmpty then .none else some { g with out := some value }
  | .config => if value.isEmpty then .none else some { g with config := some value }
  | .commit => some { g with commit := some value }

/-- Takes an option with its value. -/
def takeSetting (g : Given) (setting : Setting) (value : String) : Except Stop Given :=
  match g.withValue? value setting with
  | .none => .error (.usage (.wrongValue setting value))
  | some taken =>
    if g.has setting then .error (.usage (.repeatedSetting setting)) else .ok taken

/-- Takes a flag. -/
def takeFlag (g : Given) : Flag → Except Stop Given
  | .help => .error .help
  | .version => .error .version
  | .skipLiveCheck =>
    if g.skipLiveCheck then .error (.usage (.repeatedFlag .skipLiveCheck))
    else .ok { g with skipLiveCheck := true }
  | .skipSyntaxCheck =>
    if g.skipSyntaxCheck then .error (.usage (.repeatedFlag .skipSyntaxCheck))
    else .ok { g with skipSyntaxCheck := true }
  | .verbose =>
    if g.verbose then .error (.usage (.repeatedFlag .verbose))
    else .ok { g with verbose := true }

/-- Takes the script, of which there is only one. -/
def takeScript (g : Given) (path : String) : Except Stop Given :=
  if g.script.isSome then .error (.usage (.unknown path))
  else if path.isEmpty then .error (.usage .emptyScript)
  else .ok { g with script := some path }

/-- Takes flags written as letters behind one hyphen. -/
def takeLetters (g : Given) (argument : String) (letters : List Char) : Except Stop Given :=
  letters.foldlM (fun g c =>
    match Flag.ofLetter? c with
    | some flag => g.takeFlag flag
    | .none => .error (.usage (.unknown argument))) g

end Given

/-- The ways to write an argument. -/
inductive Shape where
  | separator
  | long (name : String) (value : Option String)
  | letters (letters : List Char)
  | plain
  deriving DecidableEq, Repr, Inhabited

/-- How an argument is written.  A lone hyphen is a plain argument. -/
def Shape.of (argument : String) : Shape :=
  match argument.toList with
  | ['-', '-'] => separator
  | '-' :: '-' :: cs =>
    let (name, value) := cs.span (· ≠ '=')
    long (String.ofList name)
      (if value.isEmpty then none else some (String.ofList (value.drop 1)))
  | '-' :: c :: cs => letters (c :: cs)
  | _ => plain

/-- Reads arguments. -/
def read (g : Given) : List String → Except Stop Given
  | [] => .ok g
  | argument :: rest =>
    match Shape.of argument with
    | .separator => rest.foldlM Given.takeScript g
    | .plain =>
      match g.takeScript argument with
      | .ok g => read g rest
      | .error stop => .error stop
    | .letters cs =>
      match g.takeLetters argument cs with
      | .ok g => read g rest
      | .error stop => .error stop
    | .long name value =>
      match Flag.ofName? name, Setting.ofName? name, value, rest with
      | some flag, _, none, rest =>
        match g.takeFlag flag with
        | .ok g => read g rest
        | .error stop => .error stop
      | some flag, _, some _, _ => .error (.usage (.unwantedValue flag))
      | none, some setting, some value, rest =>
        match g.takeSetting setting value with
        | .ok g => read g rest
        | .error stop => .error stop
      | none, some setting, none, value :: rest =>
        if Shape.of value = .plain then
          match g.takeSetting setting value with
          | .ok g => read g rest
          | .error stop => .error stop
        else .error (.usage (.missingValue setting))
      | none, some setting, none, [] => .error (.usage (.missingValue setting))
      | none, none, _, _ => .error (.usage (.unknown argument))

/-- What the operator asks for. -/
structure Options where
  script : String
  profile : Option Profile
  target : Option Target
  format : Format
  out : Option String
  config : Option String
  commit : Option String
  skipLiveCheck : Bool
  skipSyntaxCheck : Bool
  verbose : Bool
  deriving DecidableEq, Repr, Inhabited

/-- Reads all arguments.  A script has to be among them; reports are text unless something else is
asked for. -/
def Options.ofArguments (arguments : List String) : Except Stop Options := do
  let g ← read .none arguments
  match g.script with
  | none => .error (.usage .missingScript)
  | some script =>
    return {
      script, profile := g.profile, target := g.target, format := g.format.getD .text,
      out := g.out, config := g.config, commit := g.commit, skipLiveCheck := g.skipLiveCheck,
      skipSyntaxCheck := g.skipSyntaxCheck, verbose := g.verbose }

end Preflight.CommandLine
