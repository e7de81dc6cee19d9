import EngineShell.Storage.Path

/-!
# Disks

A tree of files as a table from locations to what is there. A path is followed from directory to
directory; writing needs a directory to write into, and a name that no file can have is never
found and never written.
-/

namespace EngineShell

/-- What is at a location. `binary` is a file whose bytes are no text. -/
inductive DiskEntry where
  | file (text : String)
  | binary
  | directory
  deriving DecidableEq, Repr

/-- The tree. The working directory and the ones above it are in it anyway. -/
structure Disk where
  entries : List (Location × DiskEntry) := []
  deriving DecidableEq, Repr

namespace Disk

def entryAt? (d : Disk) (l : Location) : Option DiskEntry :=
  if l.names.isEmpty then some .directory else d.entries.lookup l

def put (d : Disk) (l : Location) (e : DiskEntry) : Disk where
  entries := d.entries.filter (fun q => q.1 != l) ++ [(l, e)]

/-- Take away what is at a location. -/
def erase (d : Disk) (l : Location) : Disk where
  entries := d.entries.filter fun q => q.1 != l

/-- Where one piece of a path leads from a location, which has to be a directory. -/
def follow? (d : Disk) (l : Location) (piece : String) : Option Location :=
  if d.entryAt? l ≠ some .directory then none
  else if piece = "" ∨ piece = "." then some l
  else if piece = ".." then some l.up
  else if Path.isName piece then some (l.down piece)
  else none

/-- Where a path leads. Nothing needs to be there. -/
def locate? (d : Disk) (p : Path) : Option Location :=
  if p.isUsable then p.pieces.foldlM d.follow? p.start else none

def get? (d : Disk) (p : Path) : Option DiskEntry :=
  (d.locate? p).bind d.entryAt?

def exists? (d : Disk) (p : Path) : Bool :=
  (d.get? p).isSome

def read? (d : Disk) (p : Path) : Option String :=
  match d.get? p with
  | some (.file text) => some text
  | _ => none

def write? (d : Disk) (p : Path) (text : String) : Option Disk :=
  (d.locate? p).bind fun l =>
    if d.entryAt? l = some .directory then none else some (d.put l (.file text))

/-- Make a directory, unless it is there. Slashes at the end of its path do not matter. -/
def makeDirectory? (d : Disk) (p : Path) : Option Disk :=
  if d.get? p = some .directory then some d
  else
    (d.locate? p.withoutSlashes).bind fun l =>
      if d.entryAt? l = none then some (d.put l .directory) else none

/-- Make a directory and the ones on the way to it, unless they are there. -/
def makeDirectories? (d : Disk) (p : Path) : Option Disk :=
  if p = {} then some d else (p.parents ++ [p]).foldlM makeDirectory? d

/-- Put something at a path and make the directories on the way. What cannot be reached stays as
it is. -/
def place (d : Disk) (p : Path) (e : DiskEntry) : Disk :=
  let d := (d.makeDirectories? p.parent).getD d
  ((d.locate? p).map fun l => d.put l e).getD d

def remove? (d : Disk) (p : Path) : Option Disk :=
  (d.locate? p).bind fun l =>
    match d.entryAt? l with
    | none | some .directory => none
    | some _ => some (d.erase l)

/-- The files with text below the working directory, each with its path from there. -/
def files (d : Disk) : List (String × String) :=
  d.entries.filterMap fun (l, e) =>
    match l.origin, e with
    | .above 0, .file text => some (l.path.text, text)
    | _, _ => none

def entryOfBytes (bytes : ByteArray) : DiskEntry :=
  match String.fromUTF8? bytes with
  | some text => .file text
  | none => .binary

end Disk

end EngineShell
