import EngineShell.Login.Focus
import EngineShell.Login.Machine
import EngineShell.Login.Saved
import EngineShell.Metrics
import EngineShell.Outcome
import EngineShell.Presentation.Board
import EngineShell.Taps

/-!
# The login flow

The form takes a submission, stays locked until the outcome of its session arrives, and then
shows it: a recoverable error beside the unlocked form, a fatal one on a screen that stays. A
burst of icon taps brings up the same screen.
-/

namespace EngineShell

/-- The login form at work. -/
structure LoginFlow where
  machine : Machine := {}
  board : Board := {}
  pending : Option Credentials := none
  taps : Taps := {}
  metrics : Metrics := {}
  deriving DecidableEq, Repr

/-- Why a submission is not taken. -/
inductive SubmitError where
  | pending
  | fatal
  deriving DecidableEq, Repr

namespace SubmitError

def message : SubmitError → String
  | pending => "A submission is already pending"
  | fatal => "The fatal error screen is showing"

end SubmitError

namespace LoginFlow

def isPending (l : LoginFlow) : Bool :=
  l.pending.isSome

def isFatal (l : LoginFlow) : Bool :=
  l.board.shown.isFatal

def present (l : LoginFlow) (f : Presentation → Presentation) : LoginFlow :=
  { l with board := l.board.update f }

/-- Bring up the fatal screen, unless it is up. -/
def showFatal (l : LoginFlow) (message : String) : LoginFlow :=
  if l.isFatal then l
  else
    l.present fun p => { p with
      screen := .fatal message l.machine.environmentText
      form := { p.form with progressVisible := false }
      phase := .closed }

/-- Unlock the form after a session, with an error message or without one. -/
def unlock (l : LoginFlow) (error : Option String) : LoginFlow :=
  l.present fun p => { p with
    form := { p.form with
      progressVisible := false
      submitEnabled := true
      focus := (error.bind fun m => Login.focusFor? m p.form.fields).or p.form.focus
      errorMessage := error }
    phase := .closed }

/-- Bring the form up from a saved record or, without one, from the stored texts. -/
def start (l : LoginFlow) (saved : Option SavedRecord) (stored : Prefill) : LoginFlow :=
  match saved with
  | some (.fatal message) => l.showFatal message
  | some (.login fields) => { l with board := l.board.setFields fields }
  | none =>
    if stored.isEmpty then l
    else
      l.present fun p => { p with
        form := { p.form with fields := stored.applyTo p.form.fields } }

/-- The texts of the form were edited. -/
def edit (l : LoginFlow) (fields : Credentials) : LoginFlow :=
  { l with board := l.board.setFields fields }

/-- Take a submission and lock the form. -/
def submit (l : LoginFlow) (c : Credentials) : Except SubmitError LoginFlow :=
  if l.isFatal then .error .fatal
  else if l.isPending || !l.board.shown.form.submitEnabled then .error .pending
  else
    let locked := l.present fun p => { p with
      form := { p.form with
        submitEnabled := false
        progressVisible := true
        errorMessage := none
        fields := c }
      phase := .opening }
    .ok { locked with pending := some c }

def count (l : LoginFlow) (counter : Counter) : LoginFlow :=
  { l with metrics := l.metrics.record counter }

/-- The session of the submission has ended. The fatal screen takes no notice. -/
def onOutcome (l : LoginFlow) (o : Outcome) : LoginFlow :=
  let l := { l with pending := none }
  if l.isFatal then l
  else
    match o with
    | .success => l.unlock none
    | .recoverable message => (l.count .recoverable).unlock (some message)
    | .fatal message => (l.count .fatal).showFatal message

/-- The icon was tapped. -/
def tap (l : LoginFlow) (now : Nat) : TapVerdict × LoginFlow :=
  let (verdict, taps) := l.taps.tap now
  let l := { l with taps }
  match verdict with
  | .recorded => (verdict, l)
  | .fired => (verdict, (l.count .fatal).showFatal Taps.triggeredError)

/-- The record to save. A fatal message is all that is kept beside it. -/
def save (l : LoginFlow) : SavedRecord :=
  match l.board.shown.fatalMessage? with
  | some message => .fatal message
  | none => .login l.board.shown.form.fields

end LoginFlow

end EngineShell
