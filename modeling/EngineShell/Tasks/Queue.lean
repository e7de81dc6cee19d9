import EngineShell.Metrics

/-!
# Task queues

Tasks for the presentation loop, in the order in which they were posted. Once the loop is gone the
queue takes no more: what is posted then is lost.
-/

namespace EngineShell

/-- The tasks that wait, and the counts of those taken and lost. -/
structure TaskQueue (τ : Type) where
  tasks : List τ := []
  gone : Bool := false
  metrics : Metrics := {}
  deriving DecidableEq, Repr

namespace TaskQueue

variable {τ : Type}

def post (q : TaskQueue τ) (t : τ) : TaskQueue τ :=
  if q.gone then { q with metrics := q.metrics.record .taskLost }
  else { q with tasks := q.tasks ++ [t], metrics := q.metrics.record .task }

def postAll (q : TaskQueue τ) (ts : List τ) : TaskQueue τ :=
  ts.foldl post q

/-- The loop goes away, and what waits with it. -/
def close (q : TaskQueue τ) : TaskQueue τ :=
  { q with tasks := [], gone := true }

@[simp] theorem post_gone (q : TaskQueue τ) (t : τ) : (q.post t).gone = q.gone := by
  unfold post
  split <;> simp_all

@[simp] theorem postAll_gone (q : TaskQueue τ) (ts : List τ) : (q.postAll ts).gone = q.gone := by
  induction ts generalizing q with
  | nil => rfl
  | cons t ts ih => exact (ih (q.post t)).trans (q.post_gone t)

theorem postAll_tasks (q : TaskQueue τ) (ts : List τ) :
    (q.postAll ts).tasks = q.tasks ++ if q.gone then [] else ts := by
  induction ts generalizing q with
  | nil => simp [postAll]
  | cons t ts ih =>
    rw [show q.postAll (t :: ts) = (q.post t).postAll ts from rfl, ih, post_gone]
    cases h : q.gone <;> simp [post, h]

end TaskQueue

end EngineShell
