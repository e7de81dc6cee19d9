import EngineShell.Login.Saved
import EngineShell.Storage.Disk
import EngineShell.Yaml.Reader
import EngineShell.Yaml.Writer

/-!
# The saved record

The record that a host saves, as a file of its data directory. The fields of a record are given
by name or, in a list, by position; a scalar counts as a text only if it cannot stand for
anything else.
-/

namespace EngineShell

/-- What a data directory could not do. -/
inductive DataError where
  | createDirectory
  | readRecord
  | parseRecord
  | writeRecord
  | removeRecord
  | readSettings
  | parseSettings
  | writeSettings
  deriving DecidableEq, Repr

namespace DataError

def message : DataError → String
  | createDirectory => "Failed to create config directory"
  | readRecord => "Failed to read instance state"
  | parseRecord => "Failed to parse instance state"
  | writeRecord => "Failed to write instance state"
  | removeRecord => "Failed to remove instance state"
  | readSettings => "Failed to read settings"
  | parseSettings => "Failed to parse settings"
  | writeSettings => "Failed to write settings"

end DataError

namespace SavedRecord

def strictText? : Yaml.Node → Option String
  | .scalar plain text => if plain && Yaml.isTyped text then none else some (.ofList text)
  | _ => none

/-- What names a field: its name or its position. -/
inductive FieldKey where
  | name (s : String)
  | position (n : Nat)
  deriving DecidableEq

/-- The field a key names. A key that is neither a text nor a position of 64 bits is a fault. -/
def fieldKey? : Yaml.Node → Option FieldKey
  | .scalar plain text =>
    if plain && Yaml.isTyped text then
      match Yaml.readInteger text with
      | some (false, n) => if n < Nat.pow 2 64 then some (.position n) else none
      | _ => none
    else some (.name (.ofList text))
  | _ => none

/-- The only value of a field among entries with keys. A second value is a fault. -/
def fieldOf? (entries : List (FieldKey × Yaml.Node)) (name : String) (position : Nat) :
    Option Yaml.Node :=
  match entries.filter fun e => e.1 == .name name || e.1 == .position position with
  | [e] => some e.2
  | _ => none

/-- The values of the named fields of a part, given by name, or by position if it is a list. -/
def fields? (names : List String) : Yaml.Node → Option (List Yaml.Node)
  | .map entries => do
    let keyed ← entries.mapM fun e => (fieldKey? e.1).map fun key => (key, e.2)
    names.zipIdx.mapM fun p => fieldOf? keyed p.1 p.2
  | .list items => if items.length = names.length then some items else none
  | _ => none

/-- The credentials that a part holds. -/
def credentials? (node : Yaml.Node) : Option Credentials :=
  (fields? ["username", "secret", "repository"] node).bind fun values =>
    match values.mapM strictText? with
    | some [username, secret, repository] => some { username, secret, repository }
    | _ => none

def ofKind? (kind : String) (node : Yaml.Node) : Option SavedRecord :=
  if kind = "login" then
    match fields? ["fields"] node with
    | some [value] => (credentials? value).map login
    | _ => none
  else if kind = "fatal" then
    match fields? ["message"] node with
    | some [value] => (strictText? value).map fatal
    | _ => none
  else none

/-- How deep a document with a record may be nested. -/
def maxDepth : Nat := 128

/-- Whether a document can be taken apart: it is not nested too deep, and no number in it has more
than 64 bits. -/
def isReadable (node : Yaml.Node) : Bool :=
  node.depth ≤ maxDepth && node.allPlain (!Yaml.isWide ·)

/-- The record that a document holds. Its kind stands under the key `kind`, or first in a list. -/
def ofNode? : Yaml.Node → Option SavedRecord
  | .map entries =>
    let isKind (e : Yaml.Node × Yaml.Node) : Bool := strictText? e.1 == some "kind"
    match entries.filter isKind with
    | [(_, kind)] => kind.text?.bind fun kind => ofKind? kind (.map (entries.filter (!isKind ·)))
    | _ => none
  | .list (kind :: items) => kind.text?.bind fun kind => ofKind? kind (.list items)
  | _ => none

/-- The record that a file holds. -/
def ofText? (text : String) : Option SavedRecord :=
  match Yaml.read .stored text with
  | some (some node) => if isReadable node then ofNode? node else none
  | _ => none

def toText : SavedRecord → String
  | login c =>
    Yaml.fileText [("kind", .text "login"), ("fields", .map [("username", .text c.username),
      ("secret", .text c.secret), ("repository", .text c.repository)])]
  | fatal message => Yaml.fileText [("kind", .text "fatal"), ("message", .text message)]

end SavedRecord

/-- A directory with the files of a host. -/
structure DataDir where
  path : Path
  deriving DecidableEq, Repr

namespace DataDir

def recordPath (dir : DataDir) : Path :=
  dir.path.child "instance_state.yaml"

def settingsPath (dir : DataDir) : Path :=
  dir.path.child "bridge.yaml"

/-- The store of the preference files. -/
def preferencesPath (dir : DataDir) : Path :=
  dir.path.child "prefs"

/-- Set up a data directory. What is there already is taken as it is. -/
def create (d : Disk) (path : Path) : Except DataError (DataDir × Disk) :=
  if d.exists? path then .ok (⟨path⟩, d)
  else
    match d.makeDirectories? path with
    | some d => .ok (⟨path⟩, d)
    | none => .error .createDirectory

def saveRecord (dir : DataDir) (d : Disk) (r : SavedRecord) : Except DataError Disk :=
  match d.write? dir.recordPath r.toText with
  | some d => .ok d
  | none => .error .writeRecord

def loadRecord (dir : DataDir) (d : Disk) : Except DataError (Option SavedRecord) :=
  if d.exists? dir.recordPath then
    match d.read? dir.recordPath with
    | none => .error .readRecord
    | some text =>
      match SavedRecord.ofText? text with
      | some r => .ok (some r)
      | none => .error .parseRecord
  else .ok none

/-- Forget the saved record. -/
def clearRecord (dir : DataDir) (d : Disk) : Except DataError Disk :=
  if d.exists? dir.recordPath then
    match d.remove? dir.recordPath with
    | some d => .ok d
    | none => .error .removeRecord
  else .ok d

end DataDir

end EngineShell
