import EngineShell.Tasks.Loop

/-!
# A loop over a log

The plainest work for a loop: tasks that write a number into a log, one of which posts another
task, and one of which fails.
-/

namespace EngineShell

/-- A task on a log. -/
inductive LogTask where
  | push (n : Int)
  | pushThenPost (n : Int)
  | fail (n : Int)
  deriving DecidableEq, Repr

namespace LogTask

/-- The message of a task that fails. -/
def failureText (n : Int) : String :=
  "task " ++ toString n ++ " failed"

def run : LogTask → List Int → TaskRun LogTask (List Int) String
  | push n, log => { state := log ++ [n] }
  | pushThenPost n, log => { state := log ++ [n], posts := [push (-n)] }
  | fail n, log => { state := log, failure := some (failureText n) }

def weight : LogTask → Nat
  | pushThenPost _ => 2
  | _ => 1

def work : Work LogTask (List Int) String where
  run := run
  weight := weight
  posts_lt := by intro t s; cases t <;> simp [run, weight, totalWeight]

end LogTask

end EngineShell
