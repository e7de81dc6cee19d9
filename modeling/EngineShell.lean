import EngineShell.Text.Blank
import EngineShell.Text.Number
import EngineShell.Text.Quoted
import EngineShell.Command
import EngineShell.Outcome
import EngineShell.Credentials
import EngineShell.Locator
import EngineShell.Metrics
import EngineShell.Taps
import EngineShell.Geometry.Batch
import EngineShell.Overlay.Dispatch
import EngineShell.Overlay.Window
import EngineShell.Overlay.Chrome
import EngineShell.Presentation.Board
import EngineShell.Login.Basic
import EngineShell.Session.Basic
import EngineShell.Tasks.Log
import EngineShell.Decimal.Shortest
import EngineShell.Decimal.Reading
import EngineShell.Yaml.Basic
import EngineShell.Yaml.Writer
import EngineShell.Yaml.Reader
import EngineShell.Storage.Preferences
import EngineShell.Storage.Record
import EngineShell.Settings.Loading
import EngineShell.Host.Handlers
import EngineShell.Host.Work
import EngineShell.Host.Steps
import EngineShell.Engine.Recorder
import EngineShell.Console
import EngineShell.Notices
import EngineShell.Program
import EngineShell.Main
import EngineShell.Proofs.Errands
import EngineShell.Proofs.Login
import EngineShell.Proofs.Runs
import EngineShell.Proofs.Balance
import EngineShell.Proofs.Submissions
import EngineShell.Proofs.FatalScreen
import EngineShell.Proofs.Files
import EngineShell.Proofs.FatalRecord
import EngineShell.Proofs.Attribution
import EngineShell.Proofs.Windows
import EngineShell.Proofs.Terminations
import EngineShell.Proofs.Displays
import EngineShell.Proofs.Publications
import EngineShell.Proofs.Pairs
import EngineShell.Proofs.Overlays
import EngineShell.Proofs.Mirror
import EngineShell.Proofs.Flights
import EngineShell.Proofs.Held
import EngineShell.Proofs.Direct
import EngineShell.Proofs.Schedules
import EngineShell.Proofs.Tallies
import EngineShell.Proofs.Writing
import EngineShell.Proofs.Policies
import EngineShell.Proofs.Contents
import EngineShell.Proofs.Lifecycles
import EngineShell.Proofs.Reprinting
import EngineShell.Proofs.Departures
import EngineShell.Proofs.Hooks
import EngineShell.Proofs.Locks
import EngineShell.Proofs.Forms
import EngineShell.Proofs.Settlement
import EngineShell.Proofs.Restarts
import EngineShell.Proofs.Keeping
import EngineShell.Proofs.Subscribers
import EngineShell.Proofs.FlatArrays
import EngineShell.Proofs.HitRects
import EngineShell.Proofs.Telling
import EngineShell.Proofs.Reports
import EngineShell.Proofs.Immersion
import EngineShell.Proofs.Guards
import EngineShell.Proofs.Scripts
import EngineShell.Proofs.Directories
import EngineShell.Proofs.Namespaces
import EngineShell.Proofs.Arrivals
import EngineShell.Proofs.Calls
import EngineShell.Proofs.Draining
import EngineShell.Proofs.Absences
import EngineShell.Proofs.Bursts
import EngineShell.Proofs.Coordinates
import EngineShell.Proofs.Redaction
import EngineShell.Proofs.Overrides
