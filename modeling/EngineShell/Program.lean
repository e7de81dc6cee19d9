import EngineShell.Host.Steps
import EngineShell.Notices
import EngineShell.Settings.Loading

/-!
# The program

One run of the program: settings, log, data directory, and one session with the loopback engine,
from the login to the closing summary. `Program.run` says what the run does to the disk, which
messages it leaves on the console, and with which code it exits.
-/

namespace EngineShell

/-- What a run came to. -/
structure ProgramRun where
  exitCode : Nat := 0
  disk : Disk
  console : List String := []
  deriving DecidableEq, Repr

namespace Program

/-- The directory of the settings, and of everything else unless they say otherwise. -/
def configDir : DataDir :=
  ⟨.ofText "Proofread Data"⟩

/-- The exit code after an error that was reported. -/
def errorCode : Nat := 1

/-- The exit code of a run that broke off. -/
def abortCode : Nat := 101

/-- The file for the log. Each day has its own; the date stands for any. -/
def logPath (s : LoggingSettings) : Path :=
  let date := "1970-01-01"
  (Path.ofText s.dir).join
    (.ofText (if s.prefixName.isEmpty then date else s.prefixName ++ "." ++ date))

/-- Set up the directories for the log. A directory of the log that cannot be made is an error; a
file in it that cannot be made breaks the run off. -/
def openLog (s : LoggingSettings) (d : Disk) : Except Nat Disk :=
  let dir := Path.ofText s.dir
  let file := logPath s
  match if d.exists? dir then some d else d.makeDirectories? dir with
  | none => .error errorCode
  | some d =>
    match d.makeDirectories? file.parent with
    | none => .error abortCode
    | some d => if (d.write? file "").isSome then .ok d else .error abortCode

def userName (env : Environment) : String :=
  ((env.lookup "USER").or (env.lookup "USERNAME")).getD "proofreader"

/-- What is submitted for a form with these texts: the environment may name another repository,
and an empty form stands for the user's local one. -/
def submission (env : Environment) (fields : Credentials) : Credentials :=
  let c := { fields with repository := (env.lookup "PROOFREAD_REPOSITORY").getD fields.repository }
  if c = {} then { username := userName env, repository := "local/demo" } else c

/-- Let the host open one session, play the engine's script in it, and press Back. -/
def runSession (l : HostLoop) (c : Credentials) : HostLoop :=
  let opening := ((l.handle (.loginClicked c)).2.enterAll.release (.loopback none none)).2
  ((opening.post (.event .backPressed)).runUntil Host.isSettled).2

/-- Run a host over a data directory from its creation to its end. The first answer is the list of
its messages. -/
def runHost (env : Environment) (dir : DataDir) (l : HostLoop) : List Notice × HostLoop :=
  let creation := Notices.created dir l.state.disk
  let l := (l.handle .create).2
  let (course, l) := match l.state.shown.fatalMessage? with
    | some message => ([Notices.stillFatal message], l)
    | none =>
      let c := submission env l.state.shown.form.fields
      (Notices.session dir l.state.disk c, runSession l c)
  let closing := Notices.ended l.state.shown ++
    [Notices.saved dir l.state.disk l.state.login.save, .tell "Host destroyed"]
  let l := (((l.handle .saveState).2.handle .destroy).2.drain).2
  (creation ++ course ++ closing, l)

/-- Go on with a data directory and settings. The first answer is the list of the messages. -/
def runWith (s : Settings) (dir : DataDir) (d : Disk) (env : Environment) :
    List Notice × ProgramRun :=
  let setup : HostSetup := {
    machine := { size := s.display, locale := Machine.localeOf env }
    policy := .ofStrict s.strictProtocol
    store := .files dir.preferencesPath
    disk := d
    dataDir := some dir }
  match setup.start with
  | .error _ => ([], { exitCode := abortCode, disk := d })
  | .ok l =>
    let (notices, l) := runHost env dir l
    let summary := if s.metricsSummary then Notices.summary l.metrics else []
    (Notices.hostReady s :: notices ++ summary ++ [Notices.finished], { disk := l.state.disk })

/-- Go on with settings: the log comes first, and the messages after it reach the console if the
settings want them there. -/
def runSettings (s : Settings) (d : Disk) (env : Environment) : ProgramRun :=
  match openLog s.logging d with
  | .error exitCode => { exitCode, disk := d }
  | .ok d =>
    let (notices, run) : List Notice × ProgramRun := match DataDir.create d (.ofText s.dataDir) with
      | .error _ => ([], { exitCode := errorCode, disk := d })
      | .ok (dir, d) => runWith s dir d env
    let notices := [Notices.logOpened s.logging, Notices.started] ++ notices
    { run with console :=
        if s.logging.consoleOutput then Console.ofNotices s.logging.debugMode notices else [] }

/-- The paths that a run with these settings looks at. -/
def pathsOf (s : Settings) : List Path :=
  let dir : DataDir := ⟨.ofText s.dataDir⟩
  [dir.recordPath, Notices.credentialsPath dir, .ofText s.logging.dir, logPath s.logging]

def run (d : Disk) (env : Environment) : ProgramRun :=
  match DataDir.create d configDir.path with
  | .error _ => { exitCode := errorCode, disk := d }
  | .ok (config, d) =>
    match config.loadSettings d env with
    | .error _ => { exitCode := errorCode, disk := d }
    | .ok s => runSettings s d env

end Program

namespace ProgramRun

/-- The first line of the console with this text in it, from the text on. -/
def line? (r : ProgramRun) (text : String) : Option String :=
  Console.line? r.console text

end ProgramRun

end EngineShell
