import EngineShell.Command
import EngineShell.Metrics
import EngineShell.Overlay.Dispatch

/-!
# Command sinks

The entry point of one session attempt for the engine's commands. The question whether the host
finishes is answered on the spot; any other command is posted to the presentation loop until the
sink is closed, and dropped from then on.
-/

namespace EngineShell

/-- The state of an entry point. -/
structure Sink where
  finishing : Bool := false
  closed : Bool := false
  deriving DecidableEq, Repr

/-- What a command comes to at the entry point: the number that goes back to the engine, the
command if it is posted, and what is counted. -/
structure SinkReply where
  value : Int := 0
  posted : Option Command := none
  counter : Option Counter := none
  deriving DecidableEq, Repr

namespace Sink

def apply (s : Sink) (c : Command) : SinkReply :=
  if c.code = Action.queryFinishing.code then { value := flag s.finishing, counter := some .query }
  else if s.closed then { counter := some .afterClose }
  else { posted := some c }

def boolText (b : Bool) : String :=
  if b then "true" else "false"

def debugText (s : Sink) : String :=
  "CommandSink \x7b finishing: " ++ boolText s.finishing ++ ", closed: " ++ boolText s.closed ++
    ", .. \x7d"

end Sink

end EngineShell
