/-!
# System chrome

The status and navigation bars, as the visibility bits they were last given. A watchdog asserts
the bits of immersive fullscreen again when it is told that the status bar is showing.
-/

namespace EngineShell

/-- Visibility bits. -/
abbrev ChromeFlags := UInt32

namespace ChromeFlags

def hideNavigation : ChromeFlags := 0x0002
def fullscreen : ChromeFlags := 0x0004
def layoutStable : ChromeFlags := 0x0100
def layoutHideNavigation : ChromeFlags := 0x0200
def layoutFullscreen : ChromeFlags := 0x0400
def immersiveSticky : ChromeFlags := 0x1000

/-- The bits of immersive fullscreen. -/
def immersive : ChromeFlags :=
  hideNavigation ||| fullscreen ||| layoutStable ||| layoutHideNavigation ||| layoutFullscreen |||
    immersiveSticky

/-- Whether every bit of `b` is set in `a`. -/
def contains (a b : ChromeFlags) : Bool :=
  a &&& b == b

/-- The bits of `a` that are not set in `b`. -/
def without (a b : ChromeFlags) : ChromeFlags :=
  a &&& ~~~b

end ChromeFlags

/-- The bars of the display. -/
structure Chrome where
  flags : ChromeFlags := 0
  applications : Nat := 0
  deriving DecidableEq, Repr

namespace Chrome

def apply (c : Chrome) (flags : ChromeFlags) : Chrome where
  flags := flags
  applications := c.applications + 1

/-- The user brings both bars back. -/
def reveal (c : Chrome) : Chrome :=
  { c with flags := c.flags.without (ChromeFlags.fullscreen ||| ChromeFlags.hideNavigation) }

/-- Assert immersive fullscreen. -/
def reassert (c : Chrome) : Chrome :=
  c.apply ChromeFlags.immersive

/-- The watchdog hears the current bits: it asserts fullscreen again if the status bar shows, and
says whether it did. -/
def onVisibility (c : Chrome) (flags : ChromeFlags) : Bool × Chrome :=
  if flags.contains ChromeFlags.fullscreen then (false, c) else (true, c.reassert)

end Chrome

end EngineShell
