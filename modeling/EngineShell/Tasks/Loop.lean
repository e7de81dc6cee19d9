import EngineShell.Tasks.Queue

/-!
# The presentation loop

One thread owns a state and runs tasks on it in the order of the queue. A task may post further
tasks, which go to the end, and it may fail, which ends the run and leaves the tasks behind it in
the queue. Every task posts tasks of less weight than itself (`Work.posts_lt`), so a run comes to
an end.
-/

namespace EngineShell

/-- What one task did: the state after it, the tasks it posted, and how it failed, if it did. -/
structure TaskRun (τ σ ε : Type) where
  state : σ
  posts : List τ := []
  failure : Option ε := none

/-- The weight of several tasks. -/
def totalWeight {τ : Type} (weight : τ → Nat) : List τ → Nat
  | [] => 0
  | t :: ts => weight t + totalWeight weight ts

theorem totalWeight_append {τ : Type} (weight : τ → Nat) (ts us : List τ) :
    totalWeight weight (ts ++ us) = totalWeight weight ts + totalWeight weight us := by
  induction ts with
  | nil => simp [totalWeight]
  | cons t ts ih => simp only [List.cons_append, totalWeight, ih]; omega

/-- What tasks do to a state. -/
structure Work (τ σ ε : Type) where
  run : τ → σ → TaskRun τ σ ε
  weight : τ → Nat
  posts_lt : ∀ t s, totalWeight weight (run t s).posts < weight t

/-- A state and the tasks that wait for it. -/
structure Loop (τ σ : Type) where
  state : σ
  queue : TaskQueue τ := {}
  deriving DecidableEq, Repr

/-- Why a run ended. -/
inductive LoopExit where
  | settled
  | timedOut
  deriving DecidableEq, Repr

namespace Loop

variable {τ σ ε : Type}

def weight (w : Work τ σ ε) (l : Loop τ σ) : Nat :=
  totalWeight w.weight l.queue.tasks

def post (l : Loop τ σ) (t : τ) : Loop τ σ :=
  { l with queue := l.queue.post t }

/-- Take the first task off the queue and run it. -/
def runTask (w : Work τ σ ε) (l : Loop τ σ) (t : τ) (rest : List τ) : Option ε × Loop τ σ :=
  let r := w.run t l.state
  (r.failure, { state := r.state, queue := { l.queue with tasks := rest }.postAll r.posts })

theorem weight_runTask_lt (w : Work τ σ ε) {l : Loop τ σ} {t : τ} {rest : List τ}
    (h : l.queue.tasks = t :: rest) : (l.runTask w t rest).2.weight w < l.weight w := by
  have hp := w.posts_lt t l.state
  simp only [weight, runTask, TaskQueue.postAll_tasks, h, totalWeight, totalWeight_append]
  split
  · simp only [totalWeight]
    omega
  · omega

def runNext? (w : Work τ σ ε) (l : Loop τ σ) : Option (Option ε × Loop τ σ) :=
  match l.queue.tasks with
  | [] => none
  | t :: rest => some (l.runTask w t rest)

/-- Run everything that waits, also what is posted meanwhile. The answer is the number of tasks
that ran, or the failure that ended the run. -/
def drain (w : Work τ σ ε) (l : Loop τ σ) : Except ε Nat × Loop τ σ :=
  match h : l.queue.tasks with
  | [] => (.ok 0, l)
  | t :: rest =>
    match hr : l.runTask w t rest with
    | (some e, l') => (.error e, l')
    | (none, l') =>
      have : l'.weight w < l.weight w := by simpa [hr] using weight_runTask_lt w h
      let (count, last) := drain w l'
      (count.map (· + 1), last)
termination_by l.weight w

/-- Run tasks until the state is as wanted, which is looked at before each task. With no task left
the wait for one ends in a timeout. -/
def runUntil (w : Work τ σ ε) (done : σ → Bool) (l : Loop τ σ) : Except ε LoopExit × Loop τ σ :=
  if done l.state then (.ok .settled, l)
  else
    match h : l.queue.tasks with
    | [] => (.ok .timedOut, l)
    | t :: rest =>
      match hr : l.runTask w t rest with
      | (some e, l') => (.error e, l')
      | (none, l') =>
        have : l'.weight w < l.weight w := by simpa [hr] using weight_runTask_lt w h
        runUntil w done l'
termination_by l.weight w

/-- Look whether the state is as wanted, without running anything. -/
def look (done : σ → Bool) (l : Loop τ σ) : LoopExit :=
  if done l.state then .settled else .timedOut

def runTasks (w : Work τ σ ε) : Nat → Loop τ σ → Except ε LoopExit × Loop τ σ
  | 0, l => (.ok .settled, l)
  | n + 1, l =>
    match l.runNext? w with
    | none => (.ok .timedOut, l)
    | some (some e, l') => (.error e, l')
    | some (none, l') => runTasks w n l'

end Loop

end EngineShell
