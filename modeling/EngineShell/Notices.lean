import EngineShell.Console
import EngineShell.Engine.Basic
import EngineShell.Presentation.Basic
import EngineShell.Settings.Basic
import EngineShell.Storage.Preferences
import EngineShell.Storage.Record

/-!
# What a run tells

The messages of a run, each with the texts that it names: the settings of the log, the paths of the
files that were read and written, and the credentials and the answer of a session.
-/

namespace EngineShell

namespace Notices

def boolText (b : Bool) : String :=
  if b then "true" else "false"

/-- The log is set up. -/
def logOpened (s : LoggingSettings) : Notice :=
  .tell ("Logging initialized: dir=" ++ s.dir ++ ", prefix=" ++ s.prefixName ++ ", debug=" ++
    boolText s.debugMode ++ ", console=" ++ boolText s.consoleOutput)

def started : Notice :=
  .tell "Starting proofread-bridge v0.1.0"

def hostReady (s : Settings) : Notice :=
  .tell ("Host controller initialized (" ++ .ofList (Text.decimalInt s.display.width) ++ "x" ++
    .ofList (Text.decimalInt s.display.height) ++ ", " ++
    (if s.strictProtocol then "Strict" else "Lenient") ++ " protocol)")

/-- The file with the credentials of the last accepted login. -/
def credentialsPath (dir : DataDir) : Path :=
  Preferences.filePath dir.preferencesPath PreferenceStore.loginNamespace

/-- The stored texts for the form, or why there are none. -/
def prefilled (dir : DataDir) (d : Disk) : List Notice :=
  let path := (credentialsPath dir).text
  match (PreferenceStore.files dir.preferencesPath).prefill d with
  | .ok p =>
    if p.isEmpty then [] else [.detail "Pre-filling login fields from the credential store"]
  | .error .io =>
    [.tell ("Could not read stored credentials: Failed to access preference file " ++ path)]
  | .error .parse =>
    [.tell ("Could not read stored credentials: Failed to parse preference file " ++ path)]

/-- What a host starts from: the saved record, or else the stored texts. -/
def created (dir : DataDir) (d : Disk) : List Notice :=
  let path := dir.recordPath.text
  let restored := Notice.tell ("Restored instance state from " ++ path)
  let origin := match dir.loadRecord d with
    | .ok (some (.fatal _)) => [restored, .tell "Restoring fatal error screen"]
    | .ok (some (.login _)) => [restored, .detail "Restoring login fields"]
    | .ok none => prefilled dir d
    | .error e =>
      .tell ("Could not restore instance state: " ++ e.message ++ ": " ++ path) :: prefilled dir d
  origin ++ [.tell "Host created"]

/-- The record of an earlier run keeps this one from any session. -/
def stillFatal (message : String) : Notice :=
  .tell ("Fatal error from a previous run: " ++ message)

/-- Credentials were kept, or could not be. -/
def persisted (dir : DataDir) (d : Disk) (c : Credentials) : List Notice :=
  match (PreferenceStore.files dir.preferencesPath).persist d c with
  | .ok _ => [
      .detail ("Saved " ++ toString (PreferenceStore.loginEntries c).length ++
        " preference key(s) to " ++ (credentialsPath dir).text),
      .detail ("Stored credentials for " ++ Text.quote c.username)]
  | .error .io =>
    [.tell ("Failed to store credentials: Failed to access preference file " ++
      (if d.get? dir.preferencesPath = some .directory then credentialsPath dir
        else dir.preferencesPath).text)]
  | .error .parse =>
    [.tell ("Failed to store credentials: Failed to parse preference file " ++
      (credentialsPath dir).text)]

/-- A session that the loopback engine refused. -/
def refused (c : Credentials) (message : String) : List Notice :=
  let locator := match Locator.parse c.repository with
    | .ok _ => []
    | .error e => [.detail ("Locator " ++ Text.quote c.repository ++ " rejected: " ++ e.message)]
  locator ++ [
    .tell ("Engine rejected session: " ++ message),
    .tell "Session torn down",
    .detail ("Open failed: RecoverableError \x7b message: " ++ Text.quote message ++ " \x7d"),
    .tell ("Session failed: " ++ message)]

/-- A session that the loopback engine accepted, up to the press of Back. -/
def accepted (dir : DataDir) (d : Disk) (c : Credentials) (l : Locator) : List Notice :=
  [.tell ("Loopback engine opened " ++ l.text), .tell "Session live"] ++ persisted dir d c ++ [
    .tell ("Engine script finished after " ++ toString (Engine.defaultScript l).length ++
      " commands"),
    .tell "Session torn down", .tell "Session ended normally"]

/-- One session with the loopback engine, from the login to its end. -/
def session (dir : DataDir) (d : Disk) (c : Credentials) : List Notice :=
  let answer := (Engine.openLoopback none none true c).answer
  let course := match answer.refusal?, Locator.parse c.repository with
    | none, .ok l => accepted dir d c l
    | refusal, _ => refusal.toList.flatMap (refused c)
  [.tell ("Login submitted for " ++ Text.quote c.username),
    .tell ("Opening session for " ++ Text.quote c.username ++ " on " ++
      Text.quote c.repository)] ++ course ++ [.tell "Login flow settled"]

/-- How the session ended, by what is shown. -/
def ended (p : Presentation) : List Notice :=
  (p.form.errorMessage.toList.map fun e => .tell ("Session ended with error: " ++ e)) ++
    if p.phase = .closed && !p.isFatal then [.tell "Session closed normally"] else []

def saved (dir : DataDir) (d : Disk) (r : SavedRecord) : Notice :=
  match dir.saveRecord d r with
  | .ok _ => .detail ("Saved instance state to " ++ dir.recordPath.text)
  | .error e =>
    .tell ("Could not save instance state: " ++ e.message ++ ": " ++ dir.recordPath.text)

def summary (m : Metrics) : List Notice :=
  [.tell "=== Bridge Metrics Summary ===", .tell m.commandsLine, .tell m.sessionsLine]

/-- The program is at its end. -/
def finished : Notice :=
  .tell "Application shutdown complete"

end Notices

end EngineShell
