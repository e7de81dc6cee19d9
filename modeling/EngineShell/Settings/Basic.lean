import EngineShell.Geometry.Layout
import EngineShell.Text.Number
import EngineShell.Yaml.Writer

/-!
# Settings

The settings of a host with their defaults, and the file that keeps them.
-/

namespace EngineShell

/-- How the host logs. -/
structure LoggingSettings where
  dir : String := "logs"
  prefixName : String := "proofread-bridge"
  debugMode : Bool := false
  consoleOutput : Bool := true
  deriving DecidableEq, Repr

/-- The settings of a host. -/
structure Settings where
  dataDir : String := "Proofread Data"
  logging : LoggingSettings := {}
  display : DisplaySize := {}
  strictProtocol : Bool := true
  metricsSummary : Bool := true
  deriving DecidableEq, Repr

namespace Settings

def boolWord (b : Bool) : Yaml.Tree :=
  .word (if b then "true" else "false")

/-- A number in a file. -/
def intWord (i : Int) : Yaml.Tree :=
  .word (.ofList (Text.decimalInt i))

def toText (s : Settings) : String :=
  Yaml.fileText [
    ("data_dir", .text s.dataDir),
    ("logging", .map [
      ("dir", .text s.logging.dir),
      ("prefix", .text s.logging.prefixName),
      ("debug_mode", boolWord s.logging.debugMode),
      ("console_output", boolWord s.logging.consoleOutput)]),
    ("display", .map [
      ("width", intWord s.display.width),
      ("height", intWord s.display.height)]),
    ("strict_protocol", boolWord s.strictProtocol),
    ("metrics_summary_on_exit", boolWord s.metricsSummary)]

end Settings

end EngineShell
