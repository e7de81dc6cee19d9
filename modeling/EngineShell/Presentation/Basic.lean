import EngineShell.Credentials
import EngineShell.Overlay.Widgets

/-!
# What the host shows

The login form or the fatal screen, the widgets of the overlay, and where the session stands.
-/

namespace EngineShell

/-- The login form. -/
structure LoginForm where
  fields : Credentials := {}
  submitEnabled : Bool := true
  progressVisible : Bool := false
  errorMessage : Option String := none
  focus : Option Field := none
  deriving DecidableEq, Repr

/-- What fills the host's window. -/
inductive Screen where
  | login
  | fatal (message environment : String)
  deriving DecidableEq, Repr

/-- Where a session attempt stands. -/
inductive Phase where
  | idle
  | opening
  | live
  | closed
  deriving DecidableEq, Repr

namespace Phase

def all : List Phase :=
  [idle, opening, live, closed]

def name : Phase → String
  | idle => "idle"
  | opening => "opening"
  | live => "live"
  | closed => "closed"

end Phase

/-- Everything the host shows. -/
structure Presentation where
  screen : Screen := .login
  form : LoginForm := {}
  overlay : Widgets := {}
  phase : Phase := .idle
  overlayAttached : Bool := false
  deriving DecidableEq, Repr

namespace Presentation

def fatalMessage? (p : Presentation) : Option String :=
  match p.screen with
  | .login => none
  | .fatal message _ => some message

def isFatal (p : Presentation) : Bool :=
  p.fatalMessage?.isSome

end Presentation

end EngineShell
