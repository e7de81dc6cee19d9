import EngineShell.Login.Machine
import EngineShell.Settings.Reading
import EngineShell.Storage.Record

/-!
# Loading settings

Settings come in layers: the defaults, the file of the data directory over them, and the
environment variables over both. Each entry of a layer is laid at the path that its name leads
through.
-/

namespace EngineShell

namespace Settings

/-- The entries of a settings file. A document that is not a map is a fault, no document is not. -/
def fileLayer? (text : String) : Option (List (String × SettingValue)) :=
  match Yaml.read .edited text with
  | none => none
  | some none => some []
  | some (some node) =>
    match SettingValue.ofNode node with
    | some (.map es) => some es
    | _ => none

/-- What the names of variables with settings start with, in any case. -/
def variablePrefix : List Char :=
  "proofread__".toList

/-- The name with dots that the name of a variable stands for: each pair of underscores is a
dot. -/
def dotted : List Char → List Char
  | '_' :: '_' :: cs => '.' :: dotted cs
  | c :: cs => c :: dotted cs
  | [] => []

def settingName? (s : String) : Option (List Char) :=
  let name := Text.lower s.toList
  if variablePrefix.isPrefixOf name then some (dotted (name.drop variablePrefix.length)) else none

def environmentLayer (env : Environment) : List (List Char × SettingValue) :=
  env.filterMap fun (name, value) =>
    (settingName? name).map fun name => (name, SettingValue.ofVariable value)

def layAll (below : SettingValue) (layer : List (List Char × SettingValue)) : SettingValue :=
  layer.foldl (fun v (name, value) => v.setPath (SettingValue.pathOf name) value) below

/-- The settings of a file text, if there is a file, and an environment. -/
def load (file : Option String) (env : Environment) : Except DataError Settings :=
  match fileLayer? (file.getD "") with
  | none => .error .readSettings
  | some es =>
    let below := layAll (.map []) (es.map fun (name, value) => (name.toList, value))
    match ofValue? (layAll below (environmentLayer env)) with
    | some s => .ok s
    | none => .error .parseSettings

end Settings

namespace DataDir

/-- The paths that may have the settings: the settings file, and the ones whose names have one
more ending of the format. -/
def settingsPaths (dir : DataDir) : List Path :=
  dir.settingsPath :: ["bridge.yaml.yaml", "bridge.yaml.yml"].map dir.path.child

/-- The first of these that is a file. -/
def settingsFile? (dir : DataDir) (d : Disk) : Option DiskEntry :=
  (dir.settingsPaths.filterMap d.get?).find? (· ≠ .directory)

/-- Load the settings of a data directory. Without a file there are the defaults; a file that is no
text is a fault. -/
def loadSettings (dir : DataDir) (d : Disk) (env : Environment) : Except DataError Settings :=
  match dir.settingsFile? d with
  | some (.file text) => Settings.load (some text) env
  | some .binary => .error .readSettings
  | _ => Settings.load none env

def saveSettings (dir : DataDir) (d : Disk) (s : Settings) : Except DataError Disk :=
  match d.write? dir.settingsPath s.toText with
  | some d => .ok d
  | none => .error .writeSettings

end DataDir

end EngineShell
