import EngineShell.Text.Search

/-!
# Paths

A path is kept as it is written, piece by piece. A piece that names nothing (an empty one, `.` or
`..`) still asks for a directory before it, so two paths that read alike may lead to different
places, or one of them nowhere. A location is where a path leads.
-/

namespace EngineShell

/-- A path: the pieces between its slashes, from the top of the tree or from the working
directory. -/
structure Path where
  isAbsolute : Bool := false
  pieces : List String := []
  deriving DecidableEq, Repr

namespace Path

def ofText (text : String) : Path :=
  let pieces (cs : List Char) : List String := (Text.split '/' cs).map .ofList
  match text.toList with
  | [] => {}
  | '/' :: cs => { isAbsolute := true, pieces := pieces cs }
  | cs => { pieces := pieces cs }

def text (p : Path) : String :=
  (if p.isAbsolute then "/" else "") ++ "/".intercalate p.pieces

/-- A path seen from another one. -/
def join (base p : Path) : Path :=
  if p.isAbsolute then p
  else
    let front := if base.pieces.getLast? = some "" then base.pieces.dropLast else base.pieces
    { base with pieces := front ++ p.pieces }

def child (p : Path) (name : String) : Path :=
  p.join { pieces := [name] }

/-- The pieces of a path that lead elsewhere. -/
def steps (p : Path) : List String :=
  p.pieces.filter fun piece => piece ≠ "" && piece ≠ "."

def parent (p : Path) : Path :=
  { p with pieces := p.steps.dropLast }

/-- The paths of the directories that lie on the way of a path, from the top. -/
def parents (p : Path) : List Path :=
  (List.range p.steps.length).tail.map fun n => { p with pieces := p.steps.take n }

def withoutSlashes (p : Path) : Path :=
  { p with pieces := (p.pieces.reverse.dropWhile (· = "")).reverse }

/-- The longest text of a path, in bytes. -/
def maxSize : Nat := 4095

/-- Whether a path can lead anywhere. -/
def isUsable (p : Path) : Bool :=
  p ≠ {} && p.text.utf8ByteSize ≤ maxSize

def isName (name : String) : Bool :=
  name.utf8ByteSize ≤ 255 && !name.toList.any fun c => c.toNat == 0

end Path

/-- Where the names of a location start: at the top of the tree, or so many levels above the
working directory. -/
inductive Origin where
  | top
  | above (levels : Nat)
  deriving DecidableEq, Repr

/-- A place in the tree: the names on the way to it. -/
structure Location where
  origin : Origin := .above 0
  names : List String := []
  deriving DecidableEq, Repr

def Path.start (p : Path) : Location :=
  { origin := if p.isAbsolute then .top else .above 0 }

namespace Location

/-- The place of a name in a directory. -/
def down (l : Location) (name : String) : Location :=
  { l with names := l.names ++ [name] }

/-- The directory above. The one at the top is above itself. -/
def up (l : Location) : Location :=
  match l.names, l.origin with
  | [], .above n => { origin := .above (n + 1) }
  | _, _ => { l with names := l.names.dropLast }

def path (l : Location) : Path :=
  match l.origin with
  | .top => { isAbsolute := true, pieces := l.names }
  | .above n => { pieces := List.replicate n ".." ++ l.names }

end Location

end EngineShell
