import EngineShell.Text.Blank
import EngineShell.Text.Number

/-!
# Repository locators

A locator names a group, maybe a user, and maybe a host with a port:
`group`, `user@/group`, `host:port/group` or `user@host:port/group`. `Locator.parse` reads a text
after trimming it and names the first fault it finds; `Locator.text` writes the locator down again.
-/

namespace EngineShell

/-- Why a text is not a locator. -/
inductive LocatorError where
  | invalidChar
  | emptyGroup
  | emptyUser
  | emptyHostPort
  | wrongHostPort
  | emptyHost
  | emptyPort
  | invalidPort
  | portOutOfRange
  deriving DecidableEq, Repr

namespace LocatorError

def name : LocatorError → String
  | invalidChar => "InvalidChar"
  | emptyGroup => "EmptyGroup"
  | emptyUser => "EmptyUser"
  | emptyHostPort => "EmptyHostPort"
  | wrongHostPort => "WrongHostPort"
  | emptyHost => "EmptyHost"
  | emptyPort => "EmptyPort"
  | invalidPort => "InvalidPort"
  | portOutOfRange => "PortOutOfRange"

def message : LocatorError → String
  | invalidChar => "invalid char"
  | emptyGroup => "empty REPO"
  | emptyUser => "empty USER"
  | emptyHostPort => "empty HOST:PORT"
  | wrongHostPort => "wrong HOST:PORT"
  | emptyHost => "empty HOST"
  | emptyPort => "empty PORT"
  | invalidPort => "invalid PORT"
  | portOutOfRange => "PORT out of range"

end LocatorError

/-- Where a repository is. -/
structure Locator where
  user : Option String := none
  host : Option String := none
  port : Option Nat := none
  group : String
  deriving DecidableEq, Repr

namespace Locator

/-- The parts before and after the first occurrence of a character. -/
def cutFirst (sep : Char) : List Char → Option (List Char × List Char)
  | [] => none
  | c :: cs =>
    if c = sep then some ([], cs)
    else (cutFirst sep cs).map fun r => (c :: r.1, r.2)

/-- The parts before and after the last occurrence of a character. -/
def cutLast (sep : Char) : List Char → Option (List Char × List Char)
  | [] => none
  | c :: cs =>
    match cutLast sep cs with
    | some (front, back) => some (c :: front, back)
    | none => if c = sep then some ([], cs) else none

/-- A port: at most one plus sign, digits, and a value of sixteen bits that is not zero. -/
def parsePort (cs : List Char) : Except LocatorError Nat :=
  match Text.readUnsigned cs with
  | none => .error .invalidPort
  | some n =>
    if 65535 < n then .error .invalidPort
    else if n = 0 then .error .portOutOfRange
    else .ok n

/-- A host and its port, parted by the last colon. -/
def parseAddress (cs : List Char) : Except LocatorError (List Char × Nat) :=
  match cutLast ':' cs with
  | none => .error .wrongHostPort
  | some (host, port) =>
    if host = [] then .error .emptyHost
    else if port = [] then .error .emptyPort
    else (parsePort port).map fun n => (host, n)

/-- The user before the first at sign, if there is one, and what follows. -/
def cutUser (cs : List Char) : Option (List Char) × List Char :=
  match cutFirst '@' cs with
  | none => (none, cs)
  | some (user, rest) => (some user, rest)

/-- A locator with a slash: the part before the first slash says where, the rest is the group. -/
def parsePlaced (front group : List Char) : Except LocatorError Locator :=
  if group = [] then .error .emptyGroup
  else
    match cutUser front with
    | (some [], _) => .error .emptyUser
    | (none, []) => .error .emptyHostPort
    | (some user, []) => .ok { user := some (.ofList user), group := .ofList group }
    | (user, address) =>
      (parseAddress address).map fun (host, port) =>
        { user := user.map .ofList, host := some (.ofList host), port := some port,
          group := .ofList group }

def parse (raw : String) : Except LocatorError Locator :=
  let cs := Text.trim raw.toList
  if cs.any Text.isBlank then .error .invalidChar
  else
    match cutFirst '/' cs with
    | some (front, group) => parsePlaced front group
    | none => if cs = [] then .error .emptyGroup else .ok { group := .ofList cs }

def text (l : Locator) : String :=
  let user := match l.user with
    | some u => u ++ "@"
    | none => ""
  match l.host, l.port with
  | some host, some port =>
    user ++ host ++ ":" ++ String.ofList (Text.decimal port) ++ "/" ++ l.group
  | _, _ => if l.user.isSome then user ++ "/" ++ l.group else l.group

end Locator

end EngineShell
