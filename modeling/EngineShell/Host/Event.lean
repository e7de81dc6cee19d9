import EngineShell.Credentials
import EngineShell.Overlay.Chrome

/-!
# Host events and hooks

What happens to the host, by kind, and a register of handlers. The handlers for a kind run in the
order in which they were registered (`handlers_on`, `handlers_foldl_on`).
-/

namespace EngineShell

/-- Something that happens to the host. A tap on the icon comes with its time in milliseconds. -/
inductive HostEvent where
  | create
  | resume
  | windowFocusChanged (focused : Bool)
  | layoutSettled
  | chromeVisibilityChanged (flags : ChromeFlags)
  | backPressed
  | destroy
  | saveState
  | fieldsEdited (fields : Credentials)
  | loginClicked (credentials : Credentials)
  | iconTapped (time : Nat)
  | quitClicked
  deriving DecidableEq, Repr

/-- The kind of an event. -/
inductive EventKind where
  | create
  | resume
  | windowFocusChanged
  | layoutSettled
  | chromeVisibilityChanged
  | backPressed
  | destroy
  | saveState
  | fieldsEdited
  | loginClicked
  | iconTapped
  | quitClicked
  deriving DecidableEq, Repr

namespace EventKind

def all : List EventKind :=
  [create, resume, windowFocusChanged, layoutSettled, chromeVisibilityChanged, backPressed, destroy,
    saveState, fieldsEdited, loginClicked, iconTapped, quitClicked]

def name : EventKind → String
  | create => "Create"
  | resume => "Resume"
  | windowFocusChanged => "WindowFocusChanged"
  | layoutSettled => "LayoutSettled"
  | chromeVisibilityChanged => "ChromeVisibilityChanged"
  | backPressed => "BackPressed"
  | destroy => "Destroy"
  | saveState => "SaveState"
  | fieldsEdited => "FieldsEdited"
  | loginClicked => "LoginClicked"
  | iconTapped => "IconTapped"
  | quitClicked => "QuitClicked"

end EventKind

def HostEvent.kind : HostEvent → EventKind
  | create => .create
  | resume => .resume
  | windowFocusChanged _ => .windowFocusChanged
  | layoutSettled => .layoutSettled
  | chromeVisibilityChanged _ => .chromeVisibilityChanged
  | backPressed => .backPressed
  | destroy => .destroy
  | saveState => .saveState
  | fieldsEdited _ => .fieldsEdited
  | loginClicked _ => .loginClicked
  | iconTapped _ => .iconTapped
  | quitClicked => .quitClicked

/-- Handlers by kind of event, in order of registration. -/
structure Hooks (σ : Type) where
  registered : List (EventKind × (σ → HostEvent → σ)) := []

namespace Hooks

variable {σ α : Type}

def on (hooks : Hooks σ) (kind : EventKind) (handler : σ → HostEvent → σ) : Hooks σ where
  registered := hooks.registered ++ [(kind, handler)]

def handlers (hooks : Hooks σ) (kind : EventKind) : List (σ → HostEvent → σ) :=
  (hooks.registered.filter fun r => r.1 == kind).map (·.2)

def count (hooks : Hooks σ) (kind : EventKind) : Nat :=
  (hooks.handlers kind).length

/-- Run every handler for an event. The first answer is how many there were. -/
def dispatch (hooks : Hooks σ) (s : σ) (e : HostEvent) : Nat × σ :=
  let handlers := hooks.handlers e.kind
  (handlers.length, handlers.foldl (fun s handler => handler s e) s)

theorem handlers_on (hooks : Hooks σ) (kind k : EventKind) (handler : σ → HostEvent → σ) :
    (hooks.on kind handler).handlers k
      = hooks.handlers k ++ if kind = k then [handler] else [] := by
  by_cases h : kind = k <;> simp [handlers, on, List.filter_append, h]

/-- Registering a handler for each of a list of kinds adds those of a kind at its end. -/
theorem handlers_foldl_on (make : α → σ → HostEvent → σ) (added : List (EventKind × α))
    (hooks : Hooks σ) (kind : EventKind) :
    (added.foldl (fun hooks a => hooks.on a.1 (make a.2)) hooks).handlers kind
      = hooks.handlers kind ++ (added.filter fun a => a.1 == kind).map fun a => make a.2 := by
  induction added generalizing hooks with
  | nil => simp
  | cons a added ih =>
    by_cases h : a.1 = kind <;> simp [ih, handlers_on, h]

end Hooks

end EngineShell
