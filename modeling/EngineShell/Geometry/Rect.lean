/-!
# Rectangles

Rectangles in device pixels. Coordinates are integers of 32 bits, so a difference may leave their
range: `sub32` then fails, and with it the width or the height of the rectangle.
-/

namespace EngineShell

/-- A difference of coordinates that 32 bits do not hold. -/
structure Overflow where
  deriving DecidableEq, Repr

def Overflow.message (_ : Overflow) : String :=
  "attempt to subtract with overflow"

def FitsCoordinate (i : Int) : Prop :=
  -0x80000000 ≤ i ∧ i < 0x80000000

instance (i : Int) : Decidable (FitsCoordinate i) :=
  inferInstanceAs (Decidable (_ ∧ _))

/-- The difference of two coordinates, if it is one itself. -/
def sub32 (a b : Int) : Except Overflow Int :=
  if FitsCoordinate (a - b) then .ok (a - b) else .error {}

/-- A rectangle; the right and the bottom edge lie outside it. -/
structure Rect where
  left : Int
  top : Int
  right : Int
  bottom : Int
  deriving DecidableEq, Repr

namespace Rect

/-- The rectangle that stands for an absent control. -/
def zero : Rect :=
  ⟨0, 0, 0, 0⟩

def isZero (r : Rect) : Bool :=
  r == zero

def width (r : Rect) : Except Overflow Int :=
  sub32 r.right r.left

def height (r : Rect) : Except Overflow Int :=
  sub32 r.bottom r.top

/-- Whether a touch at a point hits the rectangle. -/
def contains (r : Rect) (x y : Int) : Bool :=
  r.left ≤ x && x < r.right && r.top ≤ y && y < r.bottom

end Rect

end EngineShell
