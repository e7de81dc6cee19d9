import EngineShell.Geometry.Layout

/-!
# Widget contents

What the display widgets of an overlay show. A widget that the layout lacks has no content.
-/

namespace EngineShell

/-- A progress bar. -/
structure Progress where
  visible : Bool := false
  indeterminate : Bool := true
  max : Int := 100
  value : Int := 0
  deriving DecidableEq, Repr, Inhabited

namespace Progress

def imageScale : Int := 1000

/-- The start value that stands for an unknown amount of work. -/
def unknownAmount : Int := -1

/-- The update value that hides the image progress. -/
def done : Int := 1001

end Progress

/-- The contents of the widgets. -/
structure Widgets where
  repoTitle : Option String := none
  opening : Option Progress := none
  model : Option Progress := none
  image : Option Progress := none
  primary : Option String := none
  secondary : Option String := none
  deriving DecidableEq, Repr, Inhabited

namespace Widgets

def forLayout (l : Layout) : Widgets :=
  let text (w : Widget) : Option String := if l.has w then some "" else none
  let bar (w : Widget) : Option Progress := if l.has w then some {} else none
  { repoTitle := text .repoTitle
    opening := bar .openingProgress
    model := bar .modelProgress
    image := bar .imageProgress
    primary := text .primaryValue
    secondary := text .secondaryValue }

end Widgets

end EngineShell
