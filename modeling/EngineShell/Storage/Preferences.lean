import EngineShell.Login.Saved
import EngineShell.Storage.Disk
import EngineShell.Storage.Entries
import EngineShell.Text.Blank
import EngineShell.Yaml.Reader
import EngineShell.Yaml.Writer

/-!
# Preferences

Maps of texts, one for each namespace. A store keeps them in memory or in files of a directory,
one file for each namespace; a third kind of store fails whatever it is asked. The credentials
of the last accepted login are kept under three keys of the namespace `login`.
-/

namespace EngineShell

/-- Why a store did not do as asked. -/
inductive StoreError where
  | io
  | parse
  deriving DecidableEq, Repr

/-- Where preferences are kept. -/
inductive PreferenceStore where
  | memory (namespaces : List (String × Entries))
  | files (root : Path)
  | failing
  deriving DecidableEq, Repr

namespace Preferences

def namespaceOf (namespaces : List (String × Entries)) (name : String) : Entries :=
  (namespaces.lookup name).getD []

def replace (name : String) (m : Entries) : List (String × Entries) → List (String × Entries)
  | [] => [(name, m)]
  | n :: ns => if n.1 = name then (name, m) :: ns else n :: replace name m ns

/-- The entries that a part of a document holds: every key and value is a scalar, taken by its
text, and the last value of a key counts. -/
def ofNode : Yaml.Node → Option Entries
  | .map entries =>
    entries.foldlM (fun m (key, value) =>
      key.text?.bind fun key => value.text?.map fun value => Entries.put key value m) []
  | .scalar true [] => some []
  | _ => none

/-- The entries that a file holds. A blank file holds none. -/
def ofText (text : String) : Except StoreError Entries :=
  if (Text.trim text.toList).isEmpty then .ok []
  else
    match Yaml.read .stored text with
    | none => .error .parse
    | some none => .ok []
    | some (some node) =>
      match ofNode node with
      | some m => .ok m
      | none => .error .parse

def toText (m : Entries) : String :=
  Yaml.fileText (m.map fun (key, value) => (key, .text value))

/-- The printed form of a store of credentials, the same for all. -/
def debugText : String :=
  "CredentialStore \x7b .. \x7d"

def filePath (root : Path) (name : String) : Path :=
  root.join (.ofText (name ++ ".yaml"))

def load (d : Disk) (root : Path) (name : String) : Except StoreError Entries :=
  let path := filePath root name
  if d.exists? path then
    match d.read? path with
    | some text => ofText text
    | none => .error .io
  else .ok []

end Preferences

namespace PreferenceStore

def entries (s : PreferenceStore) (d : Disk) (name : String) : Except StoreError Entries :=
  match s with
  | memory namespaces => .ok (Preferences.namespaceOf namespaces name)
  | files root => Preferences.load d root name
  | failing => .error .io

def get (s : PreferenceStore) (d : Disk) (name key : String) : Except StoreError (Option String) :=
  (s.entries d name).map fun m => m.get? key

/-- Write several keys at once. Keys that are not named stay. -/
def put (s : PreferenceStore) (d : Disk) (name : String) (news : Entries) :
    Except StoreError (PreferenceStore × Disk) :=
  match s with
  | memory namespaces =>
    let m := (Preferences.namespaceOf namespaces name).putAll news
    .ok (memory (Preferences.replace name m namespaces), d)
  | files root =>
    (Preferences.load d root name).bind fun m =>
      let written := (d.makeDirectories? root).bind fun d =>
        d.write? (Preferences.filePath root name) (Preferences.toText (m.putAll news))
      match written with
      | some d => .ok (files root, d)
      | none => .error .io
  | failing => .error .io

def loginNamespace : String := "login"

def loginEntries (c : Credentials) : Entries :=
  [("u", c.username), ("p", c.secret), ("r", c.repository)]

/-- The stored texts for the login form. -/
def prefill (s : PreferenceStore) (d : Disk) : Except StoreError Prefill := do
  let username ← s.get d loginNamespace "u"
  let secret ← s.get d loginNamespace "p"
  let repository ← s.get d loginNamespace "r"
  return { username, secret, repository }

/-- Keep accepted credentials. -/
def persist (s : PreferenceStore) (d : Disk) (c : Credentials) :
    Except StoreError (PreferenceStore × Disk) :=
  s.put d loginNamespace (loginEntries c)

end PreferenceStore

end EngineShell
