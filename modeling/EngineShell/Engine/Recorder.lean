import EngineShell.Engine.Basic

/-!
# Recorders

A receiver of commands that keeps what the engine posts through its sink. It may let the host
finish when it has kept a given number of commands, or break off there and take the engine's
thread with it. `Recorder.play` lets the loopback engine play to one.
-/

namespace EngineShell

/-- What a recorder has kept since the engine opened last, and the number of questions that its
sink has answered. -/
structure Recorder where
  sink : Sink := {}
  finishAt : Option Nat := none
  breakAt : Option Nat := none
  received : List Command := []
  queries : Nat := 0
  deriving DecidableEq, Repr

namespace Recorder

def keep (r : Recorder) (c : Command) : Recorder :=
  let received := r.received ++ [c]
  let finishing := r.sink.finishing || r.finishAt == some received.length
  { r with received, sink := { r.sink with finishing } }

/-- Take a command from the engine. There is no reply if the recorder breaks off. -/
def receive (c : Command) (r : Recorder) : Option Int × Recorder :=
  let reply := r.sink.apply c
  match reply.posted with
  | some c =>
    let r := r.keep c
    (if r.breakAt = some r.received.length then none else some reply.value, r)
  | none =>
    let asked := if reply.counter = some .query then 1 else 0
    (some reply.value, { r with queries := r.queries + asked })

/-- Open the loopback engine and let its thread come to an end. The answer is the number of
commands that the thread says it sent, or the engine's refusal. -/
def play (r : Recorder) (script : Option (List Command)) (fatalEnding : Option String)
    (attached : Bool) (c : Credentials) : Except String Nat × Recorder :=
  let o := Engine.openLoopback script fatalEnding attached c
  match o.answer.refusal? with
  | some message => (.error message, r)
  | none =>
    let (sent, r) := ScriptThread.run receive { remaining := o.commands } { r with received := [] }
    (.ok (sent.getD 0), r)

theorem received_keep (r : Recorder) (c : Command) : (r.keep c).received = r.received ++ [c] := rfl

end Recorder

end EngineShell
