import EngineShell.Settings.Basic
import EngineShell.Settings.Value

/-!
# Values as settings

What a value counts as where the settings want a text, a truth value, a number or a group of
fields. A group is a map, or a list that gives its fields in order; a field that is missing keeps
its default, and one that is unknown is left aside.
-/

namespace EngineShell

namespace SettingValue

def asText? : SettingValue → Option String
  | text s => some s
  | bool b => some (if b then "true" else "false")
  | int i => some (.ofList (Text.decimalInt i))
  | number x => some x.text
  | _ => none

def yesWords : List String :=
  ["true", "on", "yes"]

def noWords : List String :=
  ["false", "off", "no"]

def asBool? : SettingValue → Option Bool
  | bool b => some b
  | int i => some (i != 0)
  | number x => some x.isNonzero
  | text s =>
    let word := String.ofList (Text.lower s.toList)
    if word = "1" ∨ yesWords.contains word then some true
    else if word = "0" ∨ noWords.contains word then some false
    else none
  | _ => none

/-- A value where a whole number is wanted. -/
def asInt? : SettingValue → Option Int
  | bool b => some (if b then 1 else 0)
  | int i => some i
  | number x => some x.toInt64
  | text s =>
    let word := String.ofList (Text.lower s.toList)
    if yesWords.contains word then some 1
    else if noWords.contains word then some 0
    else Text.readInt64 s.toList
  | _ => none

def asCoordinate? (v : SettingValue) : Option Int :=
  v.asInt?.filter fun i => decide (FitsCoordinate i)

/-- The value of a field of a group, given by name or, in a list, by position. -/
def field? (v : SettingValue) (name : String) (position : Nat) : Option SettingValue :=
  match v with
  | map es => es.lookup name
  | list items => items[position]?
  | _ => none

def isGroup : SettingValue → Bool
  | map _ => true
  | list _ => true
  | _ => false

/-- A field of a group: its default if it is missing, and a fault if it cannot be read. -/
def readField {α : Type} (v : SettingValue) (name : String) (position : Nat) (default : α)
    (read : SettingValue → Option α) : Option α :=
  match v.field? name position with
  | none => some default
  | some field => read field

end SettingValue

namespace Settings

open SettingValue

def displayOf? (v : SettingValue) : Option DisplaySize :=
  if v.isGroup then do
    let width ← v.readField "width" 0 1920 asCoordinate?
    let height ← v.readField "height" 1 1080 asCoordinate?
    return { width, height }
  else none

def loggingOf? (v : SettingValue) : Option LoggingSettings :=
  if v.isGroup then do
    let base : LoggingSettings := {}
    let dir ← v.readField "dir" 0 base.dir asText?
    let prefixName ← v.readField "prefix" 1 base.prefixName asText?
    let debugMode ← v.readField "debug_mode" 2 base.debugMode asBool?
    let consoleOutput ← v.readField "console_output" 3 base.consoleOutput asBool?
    return { dir, prefixName, debugMode, consoleOutput }
  else none

def ofValue? (v : SettingValue) : Option Settings := do
  let base : Settings := {}
  let dataDir ← v.readField "data_dir" 0 base.dataDir asText?
  let logging ← v.readField "logging" 1 base.logging loggingOf?
  let display ← v.readField "display" 2 base.display displayOf?
  let strictProtocol ← v.readField "strict_protocol" 3 base.strictProtocol asBool?
  let metricsSummary ← v.readField "metrics_summary_on_exit" 4 base.metricsSummary asBool?
  return { dataDir, logging, display, strictProtocol, metricsSummary }

end Settings

end EngineShell
