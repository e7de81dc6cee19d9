import EngineShell.Presentation.Change

/-!
# The board

The presentation as it stands, with every change published so far. All writing goes through
`update`, which publishes what the update changed. A subscriber hears the changes from its
position on; the last 256 are kept, so one that waits longer misses the ones before.
-/

namespace EngineShell

/-- The current presentation and the changes published so far, the oldest first. -/
structure Board where
  shown : Presentation := {}
  published : List Change := []
  deriving DecidableEq, Repr

/-- What waits for a subscriber: how many changes are lost, and the ones that are kept. -/
structure Reception where
  missed : Nat
  changes : List Change
  deriving DecidableEq, Repr

namespace Board

/-- Change the presentation and publish the changes. -/
def update (b : Board) (f : Presentation → Presentation) : Board where
  shown := f b.shown
  published := b.published ++ b.shown.changes (f b.shown)

/-- An update that breaks off after writing keeps what it wrote and publishes nothing. -/
def updateBroken (b : Board) (f : Presentation → Presentation) : Board :=
  { b with shown := f b.shown }

/-- Put texts into the form. -/
def setFields (b : Board) (fields : Credentials) : Board :=
  b.update fun p => { p with form := { p.form with fields } }

/-- Move the session to a phase. -/
def setPhase (b : Board) (phase : Phase) : Board :=
  b.update fun p => { p with phase }

/-- Note whether the overlay is up. -/
def setOverlayAttached (b : Board) (overlayAttached : Bool) : Board :=
  b.update fun p => { p with overlayAttached }

/-- How many changes are kept for a subscriber. -/
def kept : Nat := 256

/-- The position of a subscriber that has heard everything. -/
def position (b : Board) : Nat :=
  b.published.length

/-- What waits for a subscriber at a position. -/
def waiting (b : Board) (since : Nat) : Reception :=
  let unheard := b.published.drop since
  let missed := unheard.length - kept
  { missed, changes := unheard.drop missed }

@[simp] theorem update_shown (b : Board) (f : Presentation → Presentation) :
    (b.update f).shown = f b.shown := rfl

@[simp] theorem update_published (b : Board) (f : Presentation → Presentation) :
    (b.update f).published = b.published ++ b.shown.changes (f b.shown) := rfl

end Board

end EngineShell
