import EngineShell.Geometry.Control
import EngineShell.Geometry.Rect

/-!
# Overlay layouts

Which controls an overlay has, where they are, and which display widgets it has. The standard
layout puts nine buttons in a column at the right edge and the cursor pad at the bottom left. It
fails where a coordinate of it would not fit.
-/

namespace EngineShell

/-- The size of the display in device pixels. -/
structure DisplaySize where
  width : Int := 1920
  height : Int := 1080
  deriving DecidableEq, Repr

/-- A display widget that an overlay may have. -/
inductive Widget where
  | repoTitle
  | openingProgress
  | modelProgress
  | imageProgress
  | primaryValue
  | secondaryValue
  deriving DecidableEq, Repr

namespace Widget

def all : List Widget :=
  [repoTitle, openingProgress, modelProgress, imageProgress, primaryValue, secondaryValue]

def name : Widget → String
  | repoTitle => "RepoTitle"
  | openingProgress => "OpeningProgress"
  | modelProgress => "ModelProgress"
  | imageProgress => "ImageProgress"
  | primaryValue => "PrimaryValue"
  | secondaryValue => "SecondaryValue"

end Widget

/-- The controls with their rectangles, in order of insertion, and the widgets. -/
structure Layout where
  controls : List (Control × Rect) := []
  widgets : List Widget := []
  deriving DecidableEq, Repr

namespace Layout

/-- The pairs with a control's rectangle set; a control already there keeps its place. -/
def place (c : Control) (r : Rect) : List (Control × Rect) → List (Control × Rect)
  | [] => [(c, r)]
  | p :: ps => if p.1 = c then (c, r) :: ps else p :: place c r ps

def insert (l : Layout) (c : Control) (r : Rect) : Layout :=
  { l with controls := place c r l.controls }

/-- The layout of controls put down in order, with these widgets. -/
def ofLists (controls : List (Control × Rect)) (widgets : List Widget) : Layout :=
  controls.foldl (fun l p => l.insert p.1 p.2) { widgets }

def hitRect? (l : Layout) (c : Control) : Option Rect :=
  (l.controls.find? fun p => p.1 == c).map (·.2)

def has (l : Layout) (w : Widget) : Bool :=
  l.widgets.contains w

def withoutControl (l : Layout) (c : Control) : Layout :=
  { l with controls := l.controls.filter fun p => p.1 != c }

def withoutWidget (l : Layout) (w : Widget) : Layout :=
  { l with widgets := l.widgets.filter fun v => v != w }

/-- The edge of a button of the standard layout: a tenth of the height, at least one pixel. -/
def button (height : Int) : Int :=
  max (height.tdiv 10) 1

/-- The margin of the standard layout: a quarter of a button. -/
def margin (height : Int) : Int :=
  (button height).tdiv 4

/-- The buttons of the standard layout, from top to bottom. -/
def column : List Control :=
  Control.table.filter fun c => c != .cursor

/-- The rectangle of the button in one row of the standard column. -/
def buttonRect (left height : Int) (row : Nat) : Rect :=
  let b := button height
  let top := margin height + row * b
  ⟨left, top, left + b, top + b⟩

def standard (width height : Int) : Except Overflow Layout := do
  let b := button height
  let m := margin height
  let left ← sub32 (← sub32 width b) m
  let padTop ← sub32 (← sub32 height (b * 2)) m
  let padBottom ← sub32 height m
  let buttons := column.zipIdx.map fun (c, row) => (c, buttonRect left height row)
  return {
    controls := buttons ++ [(.cursor, ⟨m, padTop, m + b * 2, padBottom⟩)]
    widgets := Widget.all }

end Layout

end EngineShell
