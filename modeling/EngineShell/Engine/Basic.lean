import EngineShell.Credentials
import EngineShell.Engine.Script
import EngineShell.Geometry.Batch
import EngineShell.Locator

/-!
# Engines

An engine answers a request to open a session, and sends commands while it opens. There are two
kinds: one that does as it is told, and the loopback engine, which looks at the repository locator
and the user name and then plays a script.
-/

namespace EngineShell

/-- What an engine answers to a request to open a session. -/
inductive Answer where
  | accepted
  | rejected (message : String)
  deriving DecidableEq, Repr

/-- The message of a real refusal. A rejection without a message counts as acceptance. -/
def Answer.refusal? : Answer → Option String
  | accepted => none
  | rejected message => if message.isEmpty then none else some message

/-- An engine of one of the two kinds. -/
inductive Engine where
  | scripted (answer : Answer) (commands : List Command)
  | loopback (script : Option (List Command)) (fatalEnding : Option String)
  deriving DecidableEq, Repr

/-- What an engine says and does while it opens a session. A courteous one asks before each command
whether the host finishes. -/
structure Opening where
  answer : Answer
  commands : List Command := []
  courteous : Bool := false
  deriving DecidableEq, Repr

namespace Engine

/-- The commands of an engine that loads a repository. -/
def defaultScript (l : Locator) : List Command :=
  [.of .showOpeningProgress "", .of .setTitle l.text, .of .showModelProgress "",
    .of .startImageProgress "-1", .of .startImageProgress "0", .of .updateImageProgress "250",
    .of .updateImageProgress "500", .of .updateImageProgress "750",
    .of .updateImageProgress "1000", .of .updateImageProgress "1001", .of .hideModelProgress "",
    .of .setPrimaryValue "0.0", .of .setSecondaryValue "0"]

/-- The rejection of a text that is no locator. -/
def repositoryInvalid : String :=
  "repository invalid"

def openLoopback (script : Option (List Command)) (fatalEnding : Option String) (attached : Bool)
    (c : Credentials) : Opening :=
  match Locator.parse c.repository with
  | .error _ => { answer := .rejected repositoryInvalid }
  | .ok locator =>
    if c.username.isEmpty then { answer := .rejected "user name required" }
    else if !attached then { answer := .rejected "no command sink attached" }
    else
      let ending := fatalEnding.toList.map fun m => Command.of .fatalTermination m
      { answer := .accepted, commands := script.getD (defaultScript locator) ++ ending
        courteous := true }

/-- How an engine opens, with a sink attached or without one. -/
def opening (e : Engine) (attached : Bool) (c : Credentials) : Opening :=
  match e with
  | scripted answer commands => { answer, commands }
  | loopback script fatalEnding => openLoopback script fatalEnding attached c

end Engine

end EngineShell
