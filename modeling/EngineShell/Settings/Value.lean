import EngineShell.Decimal.Shortest
import EngineShell.Text.Search
import EngineShell.Yaml.Reader

/-!
# Setting values

The values that settings are made of before they are given their types: nothing, truth values,
numbers, texts, lists and maps. A path leads through maps and lists; setting a value at a path
puts them wherever something else is in the way.
-/

namespace EngineShell

/-- A value of a settings file or an environment variable. -/
inductive SettingValue where
  | null
  | bool (b : Bool)
  | int (i : Int)
  | number (x : Binary64)
  | text (s : String)
  | list (items : List SettingValue)
  | map (entries : List (String × SettingValue))

namespace SettingValue

/-- The words of a settings file that stand for nothing. -/
def nullWords : List String :=
  ["", "~", "null"]

/-- A whole number in a base after at most one sign. -/
def readSigned (base : Nat) (cs : List Char) : Option Int :=
  let (negative, digits) := Decimal.cutSign cs
  ((Yaml.readBase base digits).map fun n => if negative then -(n : Int) else n).filter fun i =>
    decide (Text.FitsInt64 i)

/-- A whole number of a settings file. -/
def readInteger (cs : List Char) : Option Int :=
  let marked := match cs with
    | '0' :: 'x' :: digits => readSigned 16 digits
    | '0' :: 'o' :: digits => readSigned 8 digits
    | '+' :: digits => Text.readInt64 digits
    | _ => none
  marked.or (Text.readInt64 cs)

/-- The words for infinity and for what is not a number. They are numbers, but none that a setting
can have. -/
def isNoValue (cs : List Char) : Bool :=
  Yaml.infinityWords.contains (.ofList (Decimal.cutSign cs).2) ||
    Yaml.nanWords.contains (.ofList cs)

/-- A number of a settings file that is not whole. -/
def readReal (cs : List Char) : Option Binary64 :=
  if cs.any Char.isDigit then Decimal.readFraction cs else none

/-- What a plain scalar of a settings file stands for, unless it can be no value. -/
def ofPlain (cs : List Char) : Option SettingValue :=
  let word := String.ofList cs
  if nullWords.contains word then some null
  else if ["true", "True", "TRUE"].contains word then some (bool true)
  else if ["false", "False", "FALSE"].contains word then some (bool false)
  else if isNoValue cs then none
  else
    match readInteger cs with
    | some i => some (int i)
    | none =>
      match readReal cs with
      | some x => some (number x)
      | none => some (text word)

/-- A key of a settings file: its kind and its text. Two keys are the same if both agree. -/
def keyOf? (node : Yaml.Node) : Option (Nat × String) :=
  match node with
  | .scalar false cs => some (0, .ofList cs)
  | .scalar true cs =>
    match ofPlain cs with
    | some (text s) => some (0, s)
    | some (int i) => some (1, .ofList (Text.decimalInt i))
    | some (bool b) => some (2, if b then "true" else "false")
    | some (number _) => some (3, .ofList cs)
    | none => some (3, .ofList cs)
    | _ => none
  | _ => none

mutual

/-- The value of a part of a settings file, if none of its maps has a key twice. -/
def ofNode : Yaml.Node → Option SettingValue
  | .scalar true cs => ofPlain cs
  | .scalar false cs => some (text (.ofList cs))
  | .list items => (ofNodes items).map list
  | .map entries => (ofEntries [] entries).map map

def ofNodes : List Yaml.Node → Option (List SettingValue)
  | [] => some []
  | n :: ns => do
    let v ← ofNode n
    let vs ← ofNodes ns
    return v :: vs

/-- The values of the entries of a map with their keys as texts. -/
def ofEntries (seen : List (Nat × String)) :
    List (Yaml.Node × Yaml.Node) → Option (List (String × SettingValue))
  | [] => some []
  | (key, value) :: es => do
    let key ← keyOf? key
    if seen.contains key then none
    let v ← ofNode value
    let vs ← ofEntries (key :: seen) es
    return (key.2, v) :: vs

end

/-- The value of an environment variable, which may be a truth value or a number. -/
def ofVariable (s : String) : SettingValue :=
  let cs := s.toList
  let word := String.ofList (Text.lower cs)
  if word = "true" then bool true
  else if word = "false" then bool false
  else
    match Text.readInt64 cs with
    | some i => int i
    | none =>
      match Decimal.readNumber cs with
      | some x => number x
      | none => text s

/-- The entries of a map; anything else has none. -/
def entries : SettingValue → List (String × SettingValue)
  | map es => es
  | _ => []

def get? (v : SettingValue) (key : String) : Option SettingValue :=
  v.entries.lookup key

/-- The items of a list; anything else has none. -/
def items : SettingValue → List SettingValue
  | list vs => vs
  | _ => []

def putEntry (key : String) (v : SettingValue) :
    List (String × SettingValue) → List (String × SettingValue)
  | [] => [(key, v)]
  | e :: es => if e.1 = key then (key, v) :: es else e :: putEntry key v es

mutual

/-- Lay a value over another: maps are merged key by key, and anything else takes its place. -/
def layOver (below : SettingValue) : SettingValue → SettingValue
  | map es => layEntries (map below.entries) es
  | v => v

def layEntries (below : SettingValue) : List (String × SettingValue) → SettingValue
  | [] => below
  | (key, v) :: es =>
    layEntries (map (putEntry key (layOver ((below.get? key).getD null) v) below.entries)) es

end

/-- A step of a path: to the value under a key, or to an item of a list. A negative position counts
from the end. -/
inductive Step where
  | key (name : String)
  | position (i : Int)
  deriving DecidableEq

/-- The list with an item at a position, and where that is. Items that are missing stand for
nothing; those in front of the first one are added there. -/
def reach (i : Int) (vs : List SettingValue) : List SettingValue × Nat :=
  if 0 ≤ i then (vs ++ List.replicate (i.toNat + 1 - vs.length) null, i.toNat)
  else
    let back := (-i).toNat
    (List.replicate (back - vs.length) null ++ vs, vs.length - back)

/-- Lay a value over what is at a path. What is in the way of the path gives way. -/
def setPath (below : SettingValue) : List Step → SettingValue → SettingValue
  | [], v => layOver below v
  | .key name :: path, v =>
    map (putEntry name (setPath ((below.get? name).getD null) path v) below.entries)
  | .position i :: path, v =>
    let (vs, n) := reach i below.items
    list (vs.set n (setPath (vs[n]?.getD null) path v))

/-- Whether a character may stand in the name of a key of a path. -/
def isPathChar (c : Char) : Bool :=
  c.isAlphanum || c == '_' || c == '-'

/-- The name that a text starts with, and the rest. -/
def cutName (cs : List Char) : Option (String × List Char) :=
  let name := cs.takeWhile isPathChar
  if name.isEmpty then none else some (.ofList name, cs.drop name.length)

/-- The position between a bracket that is open and the next one, and the rest. Blanks may stand
around it, and a minus sign in front. -/
def cutPosition (cs : List Char) : Option (Int × List Char) :=
  let cs := cs.dropWhile Yaml.isBlank
  let (negative, digits) := if cs.head? = some '-' then (true, cs.tail) else (false, cs)
  let (value, rest) := Decimal.spanDigits digits
  match rest.dropWhile Yaml.isBlank with
  | ']' :: rest =>
    let i := (Text.readNat value).map fun n => if negative then -(n : Int) else n
    (i.filter fun i => decide (Text.FitsInt64 i)).map fun i => (i, rest)
  | _ => none

/-- The steps that follow the first one of a path. -/
def stepsAfter : Nat → List Char → Option (List Step)
  | _, [] => some []
  | 0, _ => none
  | fuel + 1, c :: cs =>
    if c = '.' then
      (cutName cs).bind fun (name, rest) => (stepsAfter fuel rest).map (.key name :: ·)
    else if c = '[' then
      (cutPosition cs).bind fun (i, rest) => (stepsAfter fuel rest).map (.position i :: ·)
    else none

/-- The steps that a name with dots and brackets leads through. A name that is no path is a step by
itself. -/
def pathOf (name : List Char) : List Step :=
  let steps := (cutName name).bind fun (first, rest) =>
    (stepsAfter rest.length rest).map (.key first :: ·)
  steps.getD [.key (.ofList name)]

end SettingValue

end EngineShell
