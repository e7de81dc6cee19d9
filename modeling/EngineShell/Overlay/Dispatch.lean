import EngineShell.Command
import EngineShell.Outcome
import EngineShell.Overlay.Widgets
import EngineShell.Text.Number
import EngineShell.Text.Quoted

/-!
# Carrying out commands

What a command does to the widgets, and what it says to the host: that it was applied or ignored,
an answer to a question, the end of the session, or a violation of the protocol. A violation
changes no widget. Under the strict policy a malformed argument is an error; a widget that the
layout lacks never is.
-/

namespace EngineShell

/-- A command that the engine should not have sent. -/
inductive Violation where
  | badArgument (code : Int) (argument : String)
  | missingWidget (code : Int) (widget : Widget)
  deriving DecidableEq, Repr

namespace Violation

def text : Violation → String
  | badArgument code argument =>
    "code " ++ toString code ++ ": argument " ++ Text.quote argument ++ " is not an integer"
  | missingWidget code widget =>
    "code " ++ toString code ++ ": overlay has no " ++ widget.name ++ " display"

def stopText (v : Violation) : String :=
  "engine protocol violation: " ++ v.text

end Violation

/-- What becomes of malformed arguments. -/
inductive Policy where
  | strict
  | lenient
  deriving DecidableEq, Repr

def Policy.ofStrict (strict : Bool) : Policy :=
  if strict then .strict else .lenient

/-- What a command came to. -/
inductive Dispatch where
  | applied
  | ignored
  | query (reply : Int)
  | terminate (outcome : Outcome)
  | rejected (violation : Violation)
  deriving DecidableEq, Repr

/-- The number that goes back to the engine. -/
def Dispatch.reply : Dispatch → Int
  | query reply => reply
  | _ => 0

/-- The number that says whether something holds. -/
def flag (b : Bool) : Int :=
  if b then 1 else 0

namespace Widgets

/-- Change a widget that the command cannot do without. -/
def require {α : Type} (action : Action) (widget : Widget) (content : Option α) (change : α → α)
    (put : Option α → Widgets) : Except Violation (Dispatch × Widgets) :=
  match content with
  | some x => .ok (.applied, put (some (change x)))
  | none => .error (.missingWidget action.code widget)

def offer {α : Type} (w : Widgets) (content : Option α) (change : α → α)
    (put : Option α → Widgets) : Dispatch × Widgets :=
  match content with
  | some x => (.applied, put (some (change x)))
  | none => (.ignored, w)

/-- The integer a command carries. -/
def readValue (action : Action) (argument : String) : Except Violation Int :=
  match Text.readInt32 argument.toList with
  | some i => .ok i
  | none => .error (.badArgument action.code argument)

def startImage (value : Int) (p : Progress) : Progress :=
  if value = Progress.unknownAmount then
    { p with max := Progress.imageScale, visible := true, indeterminate := true }
  else { max := Progress.imageScale, visible := true, indeterminate := false, value }

def updateImage (value : Int) (p : Progress) : Progress :=
  if value = Progress.done then { p with visible := false } else { p with value }

/-- The effect of an action. The answer to the engine's question is whether the host finishes. -/
def perform (finishing : Bool) (w : Widgets) (action : Action) (argument : String) :
    Except Violation (Dispatch × Widgets) :=
  match action with
  | .fatalTermination => .ok (.terminate (.fatal argument), w)
  | .recoverableTermination => .ok (.terminate (.recoverable argument), w)
  | .queryFinishing => .ok (.query (flag finishing), w)
  | .setTitle =>
    require action .repoTitle w.repoTitle (fun _ => argument) ({ w with repoTitle := · })
  | .showOpeningProgress =>
    require action .openingProgress w.opening ({ · with visible := true }) ({ w with opening := · })
  | .showModelProgress =>
    require action .modelProgress w.model ({ · with visible := true }) ({ w with model := · })
  | .hideModelProgress =>
    require action .modelProgress w.model ({ · with visible := false }) ({ w with model := · })
  | .startImageProgress => do
    let value ← readValue action argument
    require action .imageProgress w.image (startImage value) ({ w with image := · })
  | .updateImageProgress => do
    let value ← readValue action argument
    require action .imageProgress w.image (updateImage value) ({ w with image := · })
  | .setSecondaryValue =>
    .ok (w.offer w.secondary (fun _ => argument) ({ w with secondary := · }))
  | .setPrimaryValue =>
    .ok (w.offer w.primary (fun _ => argument) ({ w with primary := · }))

end Widgets

def Policy.settle : Policy → Violation → Except Violation Dispatch
  | .strict, .badArgument code argument => .error (.badArgument code argument)
  | _, v => .ok (.rejected v)

/-- Carry out a command. An error is a violation that the policy does not tolerate. -/
def Widgets.apply (policy : Policy) (finishing : Bool) (w : Widgets) (c : Command) :
    Except Violation (Dispatch × Widgets) :=
  match c.action? with
  | none => .ok (.ignored, w)
  | some action =>
    match w.perform finishing action c.argument with
    | .ok result => .ok result
    | .error v => (policy.settle v).map fun d => (d, w)

end EngineShell
