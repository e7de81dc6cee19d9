import EngineShell.Geometry.Layout
import EngineShell.Text.Number

/-!
# The machine

What the fatal screen tells about the machine: the program, the system, the display and the
locale.
-/

namespace EngineShell

/-- A display and a locale. -/
structure Machine where
  size : DisplaySize := {}
  locale : String := "unknown"
  deriving DecidableEq, Repr

/-- Environment variables by name. -/
abbrev Environment := List (String × String)

namespace Machine

/-- The locale of an environment: the value of LC_ALL, else of LANG. An empty value counts. -/
def localeOf (env : Environment) : String :=
  ((env.lookup "LC_ALL").or (env.lookup "LANG")).getD "unknown"

/-- The text under a fatal message. -/
def environmentText (m : Machine) : String :=
  "proofread-bridge 0.1.0\nos: linux (x86_64)\ndisplay: " ++
    String.ofList (Text.decimalInt m.size.width) ++ "x" ++
    String.ofList (Text.decimalInt m.size.height) ++ "\nlocale: " ++ m.locale

end Machine

end EngineShell
