import EngineShell.Host.Work

/-!
# Hosts at work

Everything that can happen to a host with its queue, in steps of which each is one turn of one
thread: an event is handled or posted, the presentation thread runs a task, the engine sends a
command, and a worker enters the engine, gets its answer, and posts its results one by one.
`HostLoop.take` carries out a step; one that is not possible changes nothing.
-/

namespace EngineShell

/-- A step of a host. Workers are counted from the oldest that still works. -/
inductive HostStep where
  | handle (e : HostEvent)
  | post (e : HostEvent)
  | runTask
  | command (attempt : Nat) (c : Command)
  | enter (worker : Nat)
  | answer (worker : Nat) (a : Answer)
  | deliver (worker : Nat)
  | complete (worker : Nat)
  | refuseWindow
  | reveal
  deriving DecidableEq, Repr

namespace HostLoop

def modify (l : HostLoop) (f : Host → Host) : HostLoop :=
  { l with state := f l.state }

def modifyPlatform (l : HostLoop) (f : Platform → Platform) : HostLoop :=
  l.modify fun h => { h with platform := f h.platform }

def post (l : HostLoop) (t : HostTask) : HostLoop :=
  Loop.post l t

def setWorker (l : HostLoop) (i : Nat) (w : Worker) : HostLoop :=
  l.modify fun h => { h with workers := h.workers.set i w }

/-- Handle an event at once. The first answer is how many handlers ran. -/
def handle (l : HostLoop) (e : HostEvent) : Nat × HostLoop :=
  let (count, turn) := l.state.handle e
  (count, { state := turn.host, queue := l.queue.postAll turn.posts })

/-- The engine sends a command through the sink of an attempt. The first answer is the reply. -/
def command (l : HostLoop) (attempt : Nat) (c : Command) : Int × HostLoop :=
  let (reply, platform) := l.state.platform.apply attempt c
  (reply.value, { (l.modifyPlatform fun _ => platform) with
    queue := l.queue.postAll (reply.posted.toList.map (.command attempt)) })

/-- A worker hands its sink to the engine and asks it to open. -/
def enter (l : HostLoop) (i : Nat) : HostLoop :=
  match l.state.workers[i]? with
  | some w =>
    if w.stage = .starting then
      (l.modifyPlatform w.session.begin).setWorker i { w with stage := .opening }
    else l
  | none => l

/-- The engine answers a worker. -/
def answer (l : HostLoop) (i : Nat) (a : Answer) : HostLoop :=
  match l.state.workers[i]? with
  | some w =>
    if w.stage = .opening then
      let o := w.session.conclude l.state.platform a
      (l.modifyPlatform fun _ => o.platform).setWorker i
        { w with session := o.session, stage := .ended o.failure o.delivered }
    else l
  | none => l

/-- A worker posts the outcome that its attempt has settled, if there is one. -/
def deliver (l : HostLoop) (i : Nat) : HostLoop :=
  match l.state.workers[i]? with
  | some w =>
    match w.stage with
    | .ended failure (some o) =>
      (l.post (.outcome w.session.sink o)).setWorker i { w with stage := .ended failure none }
    | _ => l
  | none => l

/-- A worker posts that its attempt has ended, and is done. -/
def complete (l : HostLoop) (i : Nat) : HostLoop :=
  match l.state.workers[i]? with
  | some w =>
    match w.stage with
    | .ended failure none =>
      (l.post (.opened w.session failure w.credentials)).modify fun h =>
        { h with workers := h.workers.eraseIdx i }
    | _ => l
  | none => l

def runTask (l : HostLoop) : HostLoop :=
  match l.runNext? HostTask.work with
  | some (_, l) => l
  | none => l

def take (l : HostLoop) : HostStep → HostLoop
  | .handle e => (l.handle e).2
  | .post e => l.post (.event e)
  | .runTask => l.runTask
  | .command attempt c => (l.command attempt c).2
  | .enter i => l.enter i
  | .answer i a => l.answer i a
  | .deliver i => l.deliver i
  | .complete i => l.complete i
  | .refuseWindow => l.modifyPlatform fun p => { p with windows := p.windows.failNext }
  | .reveal => l.modifyPlatform fun p => { p with chrome := p.chrome.reveal }

/-- Carry out several steps in order. -/
def takeAll (l : HostLoop) (steps : List HostStep) : HostLoop :=
  steps.foldl take l

/-- Let every worker that has not entered the engine do so. -/
def enterAll (l : HostLoop) : HostLoop :=
  (List.range l.state.workers.length).foldl enter l

/-- The worker that waits for the engine. -/
def waiting? (l : HostLoop) : Option Nat :=
  l.state.workers.findIdx? fun w => w.stage == .opening

/-- Let a worker that waits for the engine come to its end: the engine sends its commands and
answers, and the worker posts its results. The first answer is whether there was one. -/
def release (l : HostLoop) (e : Engine) : Bool × HostLoop :=
  match l.waiting? with
  | none => (false, l)
  | some i =>
    match l.state.workers[i]? with
    | none => (false, l)
    | some w =>
      let o := e.opening l.state.platform.engine.sink.isSome w.credentials
      let receive (c : Command) (l : HostLoop) : Int × HostLoop := l.command w.session.sink c
      let l := EngineShell.deliver receive o.courteous o.commands l
      (true, (((l.answer i o.answer).deliver i).complete i))

/-- What all parts of the host have counted. -/
def metrics (l : HostLoop) : Metrics :=
  l.state.metrics + l.state.login.metrics + l.state.platform.metrics + l.queue.metrics

/-- Run everything that waits. -/
def drain (l : HostLoop) : Except Violation Nat × HostLoop :=
  Loop.drain HostTask.work l

def runUntil (l : HostLoop) (done : Host → Bool) : Except Violation LoopExit × HostLoop :=
  Loop.runUntil HostTask.work done l

def runTasks (l : HostLoop) (n : Nat) : Except Violation LoopExit × HostLoop :=
  Loop.runTasks HostTask.work n l

end HostLoop

end EngineShell
