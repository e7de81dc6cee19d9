import EngineShell.Program

/-!
# The command line

Runs the program in the working directory: the files that it looks at are read first, and what the
run has changed is written afterwards.
-/

namespace EngineShell.CommandLine

/-- The number of the system's error for a directory that was read like a file. -/
def isDirectoryCode : UInt32 := 21

/-- What is at a path. What cannot be reached counts as missing. -/
def readEntry (path : Path) : IO (Option DiskEntry) := do
  try
    return some (Disk.entryOfBytes (← IO.FS.readBinFile path.text))
  catch
    | .inappropriateType _ code _ =>
      return if code = isDirectoryCode then some .directory else none
    | _ => return none

def readPath (disk : Disk) (path : Path) : IO Disk := do
  match disk.locate? path with
  | none => return disk
  | some location => return (← readEntry path).elim disk (disk.put location)

def readWay (disk : Disk) (path : Path) : IO Disk :=
  (path.parents ++ [path]).foldlM readPath disk

/-- The definitions of a block of definitions that end in null characters. -/
def definitions (block : String) : Environment :=
  (Text.split (Char.ofNat 0) block.toList).filterMap fun definition =>
    (Locator.cutFirst '=' definition).map fun (name, value) => (.ofList name, .ofList value)

def environment : IO Environment := do
  try
    return definitions (String.fromUTF8? (← IO.FS.readBinFile "/proc/self/environ") |>.getD "")
  catch _ => return []

/-- The files that a run looks at. -/
def readDisk (env : Environment) : IO Disk := do
  let disk ← Program.configDir.settingsPaths.foldlM readWay {}
  match Program.configDir.loadSettings disk env with
  | .ok s => (Program.pathsOf s).foldlM readWay disk
  | .error _ => return disk

def writeDisk (before after : Disk) : IO Unit := do
  for (location, entry) in after.entries do
    if before.entryAt? location ≠ some entry then
      match entry with
      | .directory => IO.FS.createDirAll location.path.text
      | .file text => IO.FS.writeFile location.path.text text
      | .binary => pure ()

end EngineShell.CommandLine

open EngineShell CommandLine in
/-- Runs the program once and exits with its code. -/
def main : IO UInt32 := do
  let env ← environment
  let disk ← readDisk env
  let run := Program.run disk env
  writeDisk disk run.disk
  for message in run.console do
    IO.println message
  return run.exitCode.toUInt32
