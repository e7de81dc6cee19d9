/-!
# Traffic counters

What crosses the boundary to the engine, counted by kind. Each part of a host counts what it sees
for itself; the counters of the host are the sum (`Metrics.add`).
-/

namespace EngineShell

/-- Something that is counted. -/
inductive Counter where
  | applied
  | ignored
  | rejected
  | query
  | afterClose
  | geometry
  | opened
  | recoverable
  | fatal
  | task
  | taskLost
  deriving DecidableEq, Repr

namespace Counter

def all : List Counter :=
  [applied, ignored, rejected, query, afterClose, geometry, opened, recoverable, fatal, task,
    taskLost]

def name : Counter → String
  | applied => "applied"
  | ignored => "ignored"
  | rejected => "rejected"
  | query => "query"
  | afterClose => "after_close"
  | geometry => "geometry"
  | opened => "opened"
  | recoverable => "recoverable"
  | fatal => "fatal"
  | task => "task"
  | taskLost => "task_lost"

end Counter

/-- One count for each counter. -/
structure Metrics where
  applied : Nat := 0
  ignored : Nat := 0
  rejected : Nat := 0
  queries : Nat := 0
  afterClose : Nat := 0
  geometry : Nat := 0
  opened : Nat := 0
  recoverable : Nat := 0
  fatal : Nat := 0
  tasks : Nat := 0
  tasksLost : Nat := 0
  deriving DecidableEq, Repr

namespace Metrics

def record (m : Metrics) : Counter → Metrics
  | .applied => { m with applied := m.applied + 1 }
  | .ignored => { m with ignored := m.ignored + 1 }
  | .rejected => { m with rejected := m.rejected + 1 }
  | .query => { m with queries := m.queries + 1 }
  | .afterClose => { m with afterClose := m.afterClose + 1 }
  | .geometry => { m with geometry := m.geometry + 1 }
  | .opened => { m with opened := m.opened + 1 }
  | .recoverable => { m with recoverable := m.recoverable + 1 }
  | .fatal => { m with fatal := m.fatal + 1 }
  | .task => { m with tasks := m.tasks + 1 }
  | .taskLost => { m with tasksLost := m.tasksLost + 1 }

/-- The counts of two parts taken together. -/
def add (a b : Metrics) : Metrics where
  applied := a.applied + b.applied
  ignored := a.ignored + b.ignored
  rejected := a.rejected + b.rejected
  queries := a.queries + b.queries
  afterClose := a.afterClose + b.afterClose
  geometry := a.geometry + b.geometry
  opened := a.opened + b.opened
  recoverable := a.recoverable + b.recoverable
  fatal := a.fatal + b.fatal
  tasks := a.tasks + b.tasks
  tasksLost := a.tasksLost + b.tasksLost

instance : Add Metrics := ⟨add⟩

/-- The commands received and answered, those after the close of a session left out. -/
def commandsTotal (m : Metrics) : Nat :=
  m.applied + m.ignored + m.rejected + m.queries

def commandsLine (m : Metrics) : String :=
  "Commands: " ++ toString m.commandsTotal ++ " total (" ++ toString m.applied ++ " applied, " ++
    toString m.ignored ++ " ignored, " ++ toString m.rejected ++ " rejected, " ++
    toString m.queries ++ " queries, " ++ toString m.afterClose ++ " after close)"

def sessionsLine (m : Metrics) : String :=
  "Sessions: " ++ toString m.opened ++ " opened, " ++ toString m.recoverable ++
    " recoverable, " ++ toString m.fatal ++ " fatal"

end Metrics

end EngineShell
