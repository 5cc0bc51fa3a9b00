import Preflight.Config.Basic
import Preflight.Json.Decode

/-!
# Configuration as data

Settings are read section by section; whatever is left out has its default.  The same reader
serves JSON and TOML documents, under the conventions of each.
-/

namespace Preflight

open Json

/-- Profiles by their keys. -/
def Profile.ofValue? (c : Conventions) (v : Value) : Option Profile :=
  v.choice? c Profile.ofKey?

namespace DetectionPolicy

/-- Reads the section on detection. -/
def ofValue? (c : Conventions) (v : Value) : Option DetectionPolicy := do
  match ← v.fieldsOrDefault? c ["min_confidence", "priority"] with
  | [minConfidence, priority] =>
    return {
      minConfidence := ← orDefault (Value.natIn? 64) default.minConfidence minConfidence
      priority := ← orDefault (Value.list? (Profile.ofValue? c)) default.priority priority }
  | _ => none

/-- The section on detection. -/
def toValue (p : DetectionPolicy) : Value :=
  .object [("min_confidence", .number (.int p.minConfidence)),
    ("priority", .array (p.priority.map fun q => .string q.key))]

end DetectionPolicy

namespace ParserSettings

/-- Reads the section on the external parser. -/
def ofValue? (c : Conventions) (v : Value) : Option ParserSettings := do
  match ← v.fieldsOrDefault? c ["enabled", "program", "timeout_ms"] with
  | [enabled, program, timeout] =>
    return {
      enabled := ← orDefault Value.bool? default.enabled enabled
      program := ← orDefault Value.string? default.program program
      timeout := ← orDefault (Value.natIn? 64) default.timeout timeout }
  | _ => none

/-- The section on the external parser. -/
def toValue (p : ParserSettings) : Value :=
  .object [("enabled", .bool p.enabled), ("program", .string p.program),
    ("timeout_ms", .number (.int p.timeout))]

end ParserSettings

namespace LiveSettings

/-- The names of the settings. -/
def fieldNames : List String :=
  ["enabled", "program", "args", "base_url", "ready_path", "attempts", "interval_ms",
    "ready_timeout_ms", "request_timeout_ms", "shutdown_timeout_ms"]

/-- Reads the section on live probing. -/
def ofValue? (c : Conventions) (v : Value) : Option LiveSettings := do
  match ← v.fieldsOrDefault? c fieldNames with
  | [enabled, program, args, baseUrl, readyPath, attempts, interval, readyTimeout, requestTimeout,
      shutdownTimeout] =>
    return {
      enabled := ← orDefault Value.bool? default.enabled enabled
      program := ← orDefault Value.string? default.program program
      args := ← orDefault (Value.list? Value.string?) default.args args
      baseUrl := ← orDefault Value.string? default.baseUrl baseUrl
      readyPath := ← orDefault Value.string? default.readyPath readyPath
      attempts := ← orDefault (Value.natIn? 32) default.attempts attempts
      interval := ← orDefault (Value.natIn? 64) default.interval interval
      readyTimeout := ← orDefault (Value.natIn? 64) default.readyTimeout readyTimeout
      requestTimeout := ← orDefault (Value.natIn? 64) default.requestTimeout requestTimeout
      shutdownTimeout := ← orDefault (Value.natIn? 64) default.shutdownTimeout shutdownTimeout }
  | _ => none

/-- The section on live probing. -/
def toValue (l : LiveSettings) : Value :=
  let number := fun (n : Nat) => Value.number (.int n)
  .object [("enabled", .bool l.enabled), ("program", .string l.program),
    ("args", .array (l.args.map .string)), ("base_url", .string l.baseUrl),
    ("ready_path", .string l.readyPath), ("attempts", number l.attempts),
    ("interval_ms", number l.interval), ("ready_timeout_ms", number l.readyTimeout),
    ("request_timeout_ms", number l.requestTimeout),
    ("shutdown_timeout_ms", number l.shutdownTimeout)]

end LiveSettings

namespace Config

/-- Reads the section on Flask applications. -/
def endpointsOfValue? (c : Conventions) (v : Value) : Option (List String) := do
  match ← v.fieldsOrDefault? c ["expected_endpoints"] with
  | [endpoints] => orDefault (Value.list? Value.string?) default.endpoints endpoints
  | _ => none

/-- Reads all sections. -/
def ofValue? (c : Conventions) (v : Value) : Option Config := do
  match ← v.fieldsOrDefault? c ["detection", "syntax", "live", "flask"] with
  | [detection, parserCheck, live, flask] =>
    return {
      detection := ← orDefault (DetectionPolicy.ofValue? c) default.detection detection
      parserCheck := ← orDefault (ParserSettings.ofValue? c) default.parserCheck parserCheck
      live := ← orDefault (LiveSettings.ofValue? c) default.live live
      endpoints := ← orDefault (endpointsOfValue? c) default.endpoints flask }
  | _ => none

/-- All sections. -/
def toValue (c : Config) : Value :=
  .object [("detection", c.detection.toValue), ("syntax", c.parserCheck.toValue),
    ("live", c.live.toValue),
    ("flask", .object [("expected_endpoints", .array (c.endpoints.map .string))])]

end Config

end Preflight
