import EngineShell.Session.Platform

/-!
# Sessions

One attempt to work with the engine: it opens once, owns the overlay while it is live, and settles
its outcome once. Teardown takes three steps in a fixed order: the host is marked as finishing,
the overlay comes down, the sink is closed.
-/

namespace EngineShell

/-- The sending end of the result channel, which delivers one outcome. -/
structure OutcomeSender where
  settled : Bool := false
  deriving DecidableEq, Repr

namespace OutcomeSender

/-- Send an outcome. The answer is the outcome that is delivered, if it is the first. -/
def send (s : OutcomeSender) (o : Outcome) : Option Outcome × OutcomeSender :=
  (if s.settled then none else some o, { settled := true })

def debugText (s : OutcomeSender) : String :=
  "OutcomeSender \x7b settled: " ++ Sink.boolText s.settled ++ " \x7d"

end OutcomeSender

/-- How far a session has come. -/
inductive Stage where
  | created
  | live
  | tornDown
  deriving DecidableEq, Repr

/-- One session attempt. `sink` is the number of the attempt. -/
structure Session where
  sink : Nat
  layout : Layout
  params : WindowParams
  overlay : Option Guard := none
  sender : OutcomeSender := {}
  stage : Stage := .created
  accepted : Bool := false
  deriving DecidableEq, Repr

/-- A step of the teardown. -/
inductive TeardownStep where
  | markFinishing
  | removeOverlay
  | closeSink
  deriving DecidableEq, Repr

def TeardownStep.all : List TeardownStep :=
  [markFinishing, removeOverlay, closeSink]

/-- The end of an attempt to open: how it failed, if it did, and the outcome that it settled
itself. -/
structure Opened where
  failure : Option Outcome := none
  delivered : Option Outcome := none
  session : Session
  platform : Platform

namespace Session

def isLive (s : Session) : Bool :=
  s.stage == .live

def isTornDown (s : Session) : Bool :=
  s.stage == .tornDown

def takeStep (s : Session) (p : Platform) : TeardownStep → Session × Platform
  | .markFinishing => (s, p.modifySink s.sink fun k => { k with finishing := true })
  | .removeOverlay =>
    match s.overlay with
    | none => (s, p)
    | some guard => ({ s with overlay := none }, { p with windows := (guard.remove p.windows).2.2 })
  | .closeSink => (s, p.modifySink s.sink fun k => { k with closed := true })

def takeSteps (s : Session) (p : Platform) (steps : List TeardownStep) : Session × Platform :=
  steps.foldl (fun (s, p) step => s.takeStep p step) (s, p)

/-- Tear the session down. The answer is whether it was still up. -/
def teardown (s : Session) (p : Platform) : Bool × Session × Platform :=
  if s.isTornDown then (false, s, p)
  else
    let (s, p) := s.takeSteps p TeardownStep.all
    (true, { s with stage := .tornDown }, p)

/-- Tear the session down and settle its outcome. The answer is the outcome that is delivered. -/
def finish (s : Session) (p : Platform) (o : Outcome) : Option Outcome × Session × Platform :=
  let (_, s, p) := s.teardown p
  let (delivered, sender) := s.sender.send o
  (delivered, { s with sender }, p)

/-- The refusal of a second attempt to open. -/
def alreadyOpened : Outcome :=
  .recoverable "session already opened"

/-- Hand the sink to the engine and ask it to open. -/
def begin (s : Session) (p : Platform) : Platform :=
  { p with engine := { p.engine with sink := some s.sink, opens := p.engine.opens + 1 } }

def fail (s : Session) (p : Platform) (o : Outcome) : Opened :=
  let (delivered, session, platform) := s.finish p o
  { failure := some o, delivered, session, platform }

/-- Put up the overlay of a session that the engine accepted. -/
def goLive (s : Session) (p : Platform) : Opened :=
  let s := { s with accepted := true }
  let p := p.count .opened
  match Guard.attach p.windows s.params s.layout with
  | (.ok guard, windows) =>
    { session := { s with overlay := some guard, stage := .live }
      platform := { p with windows }.reassert }
  | (.error e, windows) => s.fail { p with windows } (.fatal e.message)

/-- Go on after the engine's answer. -/
def conclude (s : Session) (p : Platform) (answer : Answer) : Opened :=
  match answer.refusal? with
  | some message => s.fail p (.recoverable message)
  | none => s.goLive p

/-- Open the session with an engine. The first answer is the list of the commands posted
meanwhile. A session that has been opened already stays as it is. -/
def openWith (s : Session) (p : Platform) (e : Engine) (c : Credentials) : List Command × Opened :=
  if s.stage = .created then
    let p := s.begin p
    let o := e.opening p.engine.sink.isSome c
    let (posted, p) := p.send s.sink o.courteous o.commands
    (posted, s.conclude p o.answer)
  else ([], { failure := some alreadyOpened, session := s, platform := p })

/-- Assert immersive fullscreen while the session is live. -/
def reassert (s : Session) (p : Platform) : Platform :=
  if s.isLive then p.reassert else p

/-- A layout pass: while the overlay is up, assert fullscreen and send the engine its table. -/
def layoutPass (s : Session) (p : Platform) : Option Batch × Platform :=
  match s.overlay with
  | none => (none, p)
  | some guard =>
    let (batch, p) := p.reassert.report guard.layout
    (some batch, p)

/-- The bars changed. If the watchdog had to assert fullscreen again, a layout pass follows. -/
def onChrome (s : Session) (p : Platform) (flags : ChromeFlags) : Option Batch × Platform :=
  if s.isLive then
    match p.chrome.onVisibility flags with
    | (true, chrome) => s.layoutPass { p with chrome }
    | (false, _) => (none, p)
  else (none, p)

def stageText : Stage → String
  | .created => "Created"
  | .live => "Live"
  | .tornDown => "TornDown"

def debugText (s : Session) : String :=
  let overlay := match s.overlay with
    | some guard => "Some(" ++ guard.debugText ++ ")"
    | none => "None"
  "SessionBridge \x7b phase: " ++ stageText s.stage ++ ", overlay: " ++ overlay ++ ", outcome: " ++
    s.sender.debugText ++ ", .. \x7d"

end Session

end EngineShell
