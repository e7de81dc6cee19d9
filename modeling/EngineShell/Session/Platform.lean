import EngineShell.Engine.Basic
import EngineShell.Metrics
import EngineShell.Overlay.Chrome
import EngineShell.Overlay.Window

/-!
# The platform

What the sessions of a host share: the windows, the bars, the link to the engine, and the command
sinks, numbered by session attempt.
-/

namespace EngineShell

/-- What the engine has been handed: the sink attached last, how often it was asked to open, and
every geometry array sent to it, the oldest first. -/
structure EngineLink where
  sink : Option Nat := none
  opens : Nat := 0
  reports : List (List Int) := []
  deriving DecidableEq, Repr

namespace EngineLink

/-- Send the engine a geometry array. -/
def report (e : EngineLink) (data : List Int) : EngineLink :=
  { e with reports := e.reports ++ [data] }

/-- The table the engine works with: the last array whose length is right. -/
def table? (e : EngineLink) : Option Batch :=
  e.reports.reverse.findSome? fun data => (Batch.ofFlat data).toOption

end EngineLink

/-- What sessions share. -/
structure Platform where
  windows : Windows := {}
  chrome : Chrome := {}
  engine : EngineLink := {}
  sinks : List Sink := []
  metrics : Metrics := {}
  deriving DecidableEq, Repr

namespace Platform

def count (p : Platform) (counter : Counter) : Platform :=
  { p with metrics := p.metrics.record counter }

/-- The sink of an attempt. An attempt that never was has a closed one. -/
def sink (p : Platform) (k : Nat) : Sink :=
  p.sinks[k]?.getD { finishing := true, closed := true }

/-- Set up the sink of a new attempt. -/
def addSink (p : Platform) (s : Sink) : Platform :=
  { p with sinks := p.sinks ++ [s] }

def modifySink (p : Platform) (k : Nat) (f : Sink → Sink) : Platform :=
  { p with sinks := p.sinks.modify k f }

/-- The engine sends a command through the sink of an attempt. -/
def apply (p : Platform) (k : Nat) (c : Command) : SinkReply × Platform :=
  let reply := (p.sink k).apply c
  (reply, match reply.counter with
    | some counter => p.count counter
    | none => p)

/-- Assert immersive fullscreen. -/
def reassert (p : Platform) : Platform :=
  { p with chrome := p.chrome.reassert }

/-- Send the engine the table of a layout. -/
def report (p : Platform) (l : Layout) : Batch × Platform :=
  let batch := Batch.ofLayout l
  (batch, { p with engine := p.engine.report batch.toFlat }.count .geometry)

/-- The engine sends commands through the sink of an attempt, asking first or not. The answer is
the list of the commands that were posted. -/
def send (p : Platform) (k : Nat) (courteous : Bool) (commands : List Command) :
    List Command × Platform :=
  let receive (c : Command) (s : List Command × Platform) : Int × List Command × Platform :=
    let (reply, p) := s.2.apply k c
    (reply.value, s.1 ++ reply.posted.toList, p)
  deliver receive courteous commands ([], p)

end Platform

end EngineShell
