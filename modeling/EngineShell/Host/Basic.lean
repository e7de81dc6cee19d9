import EngineShell.Host.Event
import EngineShell.Login.Basic
import EngineShell.Session.Basic
import EngineShell.Storage.Preferences
import EngineShell.Storage.Record
import EngineShell.Tasks.Loop

/-!
# Hosts

Everything the presentation thread owns, what it shares with the engine and with the workers that
open sessions, and the tasks that wait for it. The slot says where the current session stands; a
termination that comes while the session is still opening is held in it.
-/

namespace EngineShell

/-- Where the current session stands. While it is opening, `held` is the first termination that
came meanwhile. -/
inductive Slot where
  | idle
  | opening (held : Option Outcome)
  | live (session : Session)
  deriving DecidableEq, Repr

def Slot.phase : Slot → Phase
  | idle => .idle
  | opening _ => .opening
  | live _ => .live

/-- How far a worker has come: it has not entered the engine yet, it waits for the engine's answer,
or the attempt has ended and its results wait to be posted. -/
inductive WorkerStage where
  | starting
  | opening
  | ended (failure delivered : Option Outcome)
  deriving DecidableEq, Repr

/-- A thread that opens one session. -/
structure Worker where
  session : Session
  credentials : Credentials
  stage : WorkerStage := .starting
  deriving DecidableEq, Repr

/-- A task for the presentation thread. Commands and outcomes carry the number of the attempt they
come from. -/
inductive HostTask where
  | event (e : HostEvent)
  | command (attempt : Nat) (c : Command)
  | outcome (attempt : Nat) (o : Outcome)
  | opened (session : Session) (failure : Option Outcome) (credentials : Credentials)
  deriving DecidableEq, Repr

/-- What an observer of events saw, after the host had handled the event. -/
structure Observation where
  label : String
  kind : EventKind
  phase : Phase
  exitRequested : Bool
  deriving DecidableEq, Repr

/-- A host. `dispatching` is the attempt whose commands are carried out, `observers` are the extra
handlers, by kind of event. -/
structure Host where
  login : LoginFlow := {}
  slot : Slot := .idle
  dispatching : Option Nat := none
  layout : Layout := {}
  params : WindowParams := .overlay {}
  policy : Policy := .strict
  store : PreferenceStore := .memory []
  disk : Disk := {}
  dataDir : Option DataDir := none
  saved : Option SavedRecord := none
  created : Bool := false
  destroyed : Bool := false
  exitRequested : Bool := false
  platform : Platform := {}
  workers : List Worker := []
  metrics : Metrics := {}
  observers : List (EventKind × String) := []
  observed : List Observation := []
  deriving DecidableEq, Repr

abbrev HostLoop := Loop HostTask Host

namespace Host

def shown (h : Host) : Presentation :=
  h.login.board.shown

def count (h : Host) (counter : Counter) : Host :=
  { h with metrics := h.metrics.record counter }

def present (h : Host) (f : Presentation → Presentation) : Host :=
  { h with login := h.login.present f }

/-- No session and no submission waits for its end, or the host is about to exit. -/
def isSettled (h : Host) : Bool :=
  h.exitRequested || (h.created && !h.login.isPending && h.slot == .idle)

def isLive (h : Host) : Bool :=
  h.slot.phase == .live

def isIdle (h : Host) : Bool :=
  h.slot == .idle

def submitEnabled (h : Host) : Bool :=
  h.shown.form.submitEnabled

end Host

/-- How a host is set up. -/
structure HostSetup where
  machine : Machine := {}
  policy : Policy := .strict
  layout : Option Layout := none
  store : PreferenceStore := .memory []
  disk : Disk := {}
  dataDir : Option DataDir := none
  saved : Option SavedRecord := none
  observers : List (EventKind × String) := []

/-- A new host. It fails if its display has no standard layout, even where another one is used. -/
def HostSetup.start (s : HostSetup) : Except Overflow HostLoop := do
  let standard ← Layout.standard s.machine.size.width s.machine.size.height
  return {
    state := {
      login := { machine := s.machine }
      layout := s.layout.getD standard
      params := .overlay s.machine.size
      policy := s.policy
      store := s.store
      disk := s.disk
      dataDir := s.dataDir
      saved := s.saved
      observers := s.observers } }

end EngineShell
