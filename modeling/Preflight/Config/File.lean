import Preflight.Config.Json
import Preflight.Source.FileSystem
import Preflight.Toml.Reader

/-!
# Configuration files

A configuration file is a TOML document in UTF-8.  Its settings have to make sense.
-/

namespace Preflight.Config

/-- Why there are no settings. -/
inductive LoadError where
  | unread (path : String) (osError : String)
  | unparsed (path : String)
  | invalid (fault : Fault)
  deriving DecidableEq, Repr

/-- The failure in words. -/
def LoadError.message : LoadError → String
  | unread path osError => s!"failed to read config {path}: {osError}"
  | unparsed path => s!"failed to parse config {path}"
  | invalid fault => fault.message

/-- Loads the settings of a file. -/
def load (files : FileSystem) (path : String) : Except LoadError Config := do
  let bytes ← (files path).read.mapError (.unread path)
  let text ← match Utf8.decode bytes with
    | some text => pure text
    | none => .error (.unread path "stream did not contain valid UTF-8")
  match (Toml.read text).bind (ofValue? .toml) with
  | none => .error (.unparsed path)
  | some config =>
    match config.fault? with
    | some fault => .error (.invalid fault)
    | none => return config

end Preflight.Config
