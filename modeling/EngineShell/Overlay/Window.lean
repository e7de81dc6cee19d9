import EngineShell.Geometry.Layout

/-!
# Overlay windows

A stack of windows with everything that was added to it and removed from it, and a guard that
owns one window and takes it down once. Window numbers start at one and are never used again. The
stack may be told to refuse the next window.
-/

namespace EngineShell

/-- The attributes of a window. -/
structure WindowParams where
  width : Int
  height : Int
  touchable : Bool
  focusable : Bool
  transparent : Bool
  alwaysOnTop : Bool
  deriving DecidableEq, Repr

/-- A transparent window over the whole display that takes no input. -/
def WindowParams.overlay (size : DisplaySize) : WindowParams where
  width := size.width
  height := size.height
  touchable := false
  focusable := false
  transparent := true
  alwaysOnTop := true

/-- What happened to the stack. -/
inductive WindowEvent where
  | added (id : Nat)
  | removed (id : Nat)
  deriving DecidableEq, Repr

/-- Why the stack did not do as told. -/
inductive WindowError where
  | refused
  | notAttached (id : Nat)
  deriving DecidableEq, Repr

namespace WindowError

/-- The printed form of a window number. -/
def idText (id : Nat) : String :=
  "WindowId(" ++ toString id ++ ")"

def message : WindowError → String
  | refused => "Window manager refused the overlay: permission denied"
  | notAttached id => "Window " ++ idText id ++ " is not attached"

end WindowError

/-- The windows on the display. -/
structure Windows where
  lastId : Nat := 0
  refuseNext : Bool := false
  attached : List (Nat × WindowParams) := []
  events : List WindowEvent := []
  deriving DecidableEq, Repr

namespace Windows

def failNext (w : Windows) : Windows :=
  { w with refuseNext := true }

def isAttached (w : Windows) (id : Nat) : Bool :=
  w.attached.any fun p => p.1 == id

def add (w : Windows) (params : WindowParams) : Except WindowError Nat × Windows :=
  if w.refuseNext then (.error .refused, { w with refuseNext := false })
  else
    let id := w.lastId + 1
    (.ok id, { w with
      lastId := id
      attached := w.attached ++ [(id, params)]
      events := w.events ++ [.added id] })

def remove (w : Windows) (id : Nat) : Except WindowError Unit × Windows :=
  if w.isAttached id then
    (.ok (), { w with
      attached := w.attached.filter fun p => p.1 != id
      events := w.events ++ [.removed id] })
  else (.error (.notAttached id), w)

end Windows

/-- The owner of one overlay window, as long as the window is up. -/
structure Guard where
  window : Option Nat
  layout : Layout
  deriving DecidableEq, Repr

namespace Guard

/-- Put up an overlay. -/
def attach (w : Windows) (params : WindowParams) (layout : Layout) :
    Except WindowError Guard × Windows :=
  let (result, w') := w.add params
  (result.map fun id => { window := some id, layout }, w')

/-- Take the overlay down. The answer is whether the guard still had its window. A window that is
gone already stays gone. -/
def remove (g : Guard) (w : Windows) : Bool × Guard × Windows :=
  match g.window with
  | none => (false, g, w)
  | some id => (true, { g with window := none }, (w.remove id).2)

def debugText (g : Guard) : String :=
  let id := match g.window with
    | some id => "Some(" ++ WindowError.idText id ++ ")"
    | none => "None"
  "OverlayGuard \x7b id: " ++ id ++ ", .. \x7d"

end Guard

end EngineShell
