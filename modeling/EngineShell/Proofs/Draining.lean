import EngineShell.Proofs.Calls
import EngineShell.Tasks.Log

/-!
# The queue of a loop

What a loop does with the tasks that are posted to it, whoever posts them and whichever calls run
them (`Loop.serial`): they are run in order and each once, calls may be cut at will, and a task that
fails or a loop that goes away takes no other task out of its place.
-/

namespace EngineShell

namespace Loop

variable {τ σ ε : Type}

section Work

variable {l : Loop τ σ} {t : τ} {rest : List τ}

theorem serves_runTask (w : Work τ σ ε) (done : σ → Bool) (ht : l.queue.tasks = t :: rest)
    (hd : done l.state = false) : ∃ steps, LoopRun.Quiet steps
      ∧ LoopRun.Serves w.run done { loop := l } steps 1
      ∧ LoopRun.takeAll w.run { loop := l } steps
        = { loop := (l.runTask w t rest).2, failure := (l.runTask w t rest).1 } := by
  set r := (LoopRun.mk l [] none : LoopRun τ σ ε).start w.run t rest with hr
  have hnext : (LoopRun.mk l [] none).take w.run .next = r := LoopRun.take_next rfl ht
  obtain ⟨hs, hflush⟩ := LoopRun.serves_sends w.run done r
  refine ⟨.next :: r.sends, r.quiet_sends, ?_, ?_⟩
  · exact .next rfl rfl ht hd (hnext ▸ hs)
  · rw [LoopRun.takeAll_cons, hnext, hflush]
    rfl

theorem drains_drain (w : Work τ σ ε) (l : Loop τ σ) :
    ∃ steps, LoopRun.Quiet steps ∧ Drains w.run l steps (l.drain w).2 (l.drain w).1 := by
  fun_induction Loop.drain w l with
  | case1 l h => exact ⟨[], rfl, .ok (.stop _) rfl h⟩
  | case2 l t rest h e l' hr =>
    obtain ⟨steps, hq, hs, hl⟩ := serves_runTask w (fun _ => false) h rfl
    rw [hr] at hl
    exact ⟨steps, hq, .error hs hl⟩
  | case3 l t rest h l' hr _ count last hdrain ih =>
    obtain ⟨steps, hq, hs, hl⟩ := serves_runTask w (fun _ => false) h rfl
    obtain ⟨steps', hq', hd⟩ := ih
    rw [hr] at hl
    rw [hdrain] at hd
    exact ⟨steps ++ steps', hq.append hq', hd.prepend hs hl⟩

theorem waits_runUntil (w : Work τ σ ε) (done : σ → Bool) (l : Loop τ σ) :
    ∃ steps, LoopRun.Quiet steps
      ∧ Waits w.run done l steps (l.runUntil w done).2 (l.runUntil w done).1 := by
  have stop : ∀ l : Loop τ σ, Waits w.run done l [] l (.ok (l.look done)) :=
    fun l => .ok (.stop _) rfl
  fun_induction Loop.runUntil w done l with
  | case1 l hd => exact ⟨[], rfl, by simpa [look, hd] using stop l⟩
  | case2 l hd h => exact ⟨[], rfl, by simpa [look, hd] using stop l⟩
  | case3 l hd t rest h e l' hr =>
    obtain ⟨steps, hq, hs, hl⟩ := serves_runTask w done h (by simpa using hd)
    rw [hr] at hl
    exact ⟨steps, hq, .error hs hl⟩
  | case4 l hd t rest h l' hr _ ih =>
    obtain ⟨steps, hq, hs, hl⟩ := serves_runTask w done h (by simpa using hd)
    obtain ⟨steps', hq', hw⟩ := ih
    rw [hr] at hl
    exact ⟨steps ++ steps', hq.append hq', hw.prepend hs hl⟩

theorem tasks_of_timedOut (w : Work τ σ ε) (done : σ → Bool) (l : Loop τ σ)
    (h : (l.runUntil w done).1 = .ok .timedOut) : (l.runUntil w done).2.queue.tasks = [] := by
  fun_induction Loop.runUntil w done l with
  | case1 => cases h
  | case2 l hd ht => exact ht
  | case3 => cases h
  | case4 l hd t rest ht l' hr _ ih => exact ih h

/-- The functions that run tasks, where nobody else posts: each is a call of its kind, a wait gives
up only when no task is left, and a drain finishes what calls before it have left. -/
structure Computed (w : Work τ σ ε) (l : Loop τ σ) : Prop where
  drain : ∃ steps, LoopRun.Quiet steps ∧ Drains w.run l steps (l.drain w).2 (l.drain w).1
  wait (done : σ → Bool) : ∃ steps, LoopRun.Quiet steps
    ∧ Waits w.run done l steps (l.runUntil w done).2 (l.runUntil w done).1
  timedOut (done : σ → Bool) :
    (l.runUntil w done).1 = .ok .timedOut → (l.runUntil w done).2.queue.tasks = []
  cut {steps : List (LoopStep τ)} {l₁ : Loop τ σ} : Cut w.run l steps l₁ → LoopRun.Quiet steps →
    ∃ m, l.drain w = ((l₁.drain w).1.map (· + m), (l₁.drain w).2)

theorem computed (w : Work τ σ ε) (l : Loop τ σ) : Computed w l where
  drain := drains_drain w l
  wait done := waits_runUntil w done l
  timedOut done := tasks_of_timedOut w done l
  cut {steps l₁} hc hq := by
    obtain ⟨rest, hq', hd'⟩ := drains_drain w l₁
    obtain ⟨m, hd⟩ := hc.drains hd'
    obtain ⟨whole, hq'', hd''⟩ := drains_drain w l
    obtain ⟨hlast, hanswer⟩ := hd''.unique hq'' hd (hq.append hq')
    exact ⟨m, Prod.ext hanswer hlast⟩

end Work

/-- The books of a loop that was new with the state `s`, after any steps. All that is posted is
accepted or lost, in the order of the posts. The tasks that were accepted are, in this order, those
that were run, and those that were discarded with the loop or wait now; they are counted as such.
The state is what those that were run have made of it, and what they post was accepted too. Nothing
is lost as long as the loop is there, and once it is gone nothing else can happen to a task. -/
structure Booked (run : τ → σ → TaskRun τ σ ε) (s : σ) (steps : List (LoopStep τ)) (g : TaskLog τ)
    (r : LoopRun τ σ ε) : Prop where
  arrived : (g.accepted ++ g.lost).Perm (steps.filterMap LoopStep.posted? ++ g.sent)
  posted : (steps.filterMap LoopStep.posted?).Sublist (g.accepted ++ g.lost)
  order : g.accepted = g.executed ++ (g.discarded ++ r.loop.queue.tasks)
  state : r.loop.state = after run s g.executed
  sent : (runs run s g.executed).flatMap TaskRun.posts = g.sent ++ r.unsent
  heard : g.sent.Sublist g.accepted
  marshaled : r.loop.queue.metrics.tasks
    = g.executed.length + (r.loop.queue.tasks.length + g.discarded.length)
  lost : r.loop.queue.metrics.tasksLost = g.lost.length
  intact : r.loop.queue.gone = false → g.lost = [] ∧ g.discarded = []
  gone : r.loop.queue.gone = true →
    ∀ more, r.log run more = { lost := more.filterMap LoopStep.posted? }

theorem booked (run : τ → σ → TaskRun τ σ ε) (s : σ) (steps : List (LoopStep τ)) :
    Booked run s steps (LoopRun.log run { loop := { state := s } } steps)
      (LoopRun.takeAll run { loop := { state := s } } steps) := by
  have htidy : (LoopRun.mk { state := s } [] none : LoopRun τ σ ε).Tidy := ⟨nofun, nofun⟩
  have ho := htidy.ordered run steps
  have horder := ho.order
  rw [List.nil_append] at horder
  refine ⟨LoopRun.log_perm run _ steps, htidy.posted_sublist run steps, horder, ho.state, ho.sent,
    ho.heard, ?_, ?_, ho.intact, ?_⟩
  · rw [ho.marshaled, horder]
    simp [Nat.add_comm]
  · simpa using ho.lost
  · exact fun hg => LoopRun.log_of_gone hg (ho.tasks hg) (ho.unsent hg)

-- A task posts another before one fails, and the loop goes away with the two behind them.
example : LoopRun.log LogTask.run { loop := { state := [] } }
      [.post (.pushThenPost 1), .post (.fail 2), .next, .post (.push 3), .send, .next, .close,
        .post (.push 4)]
    = { executed := [.pushThenPost 1, .fail 2]
        accepted := [.pushThenPost 1, .fail 2, .push 3, .push (-1)]
        sent := [.push (-1)]
        lost := [.push 4]
        discarded := [.push 3, .push (-1)] } := rfl

/-- What holds of a loop whatever its tasks do, and whoever posts them when. -/
structure Serial (run : τ → σ → TaskRun τ σ ε) : Prop where
  books (s : σ) (steps : List (LoopStep τ)) :
    Booked run s steps (LoopRun.log run { loop := { state := s } } steps)
      (LoopRun.takeAll run { loop := { state := s } } steps)
  drain {l l' : Loop τ σ} {steps : List (LoopStep τ)} {n : Nat} : l.queue.gone = false →
    Drains run l steps l' (.ok n) →
      l'.queue.tasks = []
        ∧ Executes run (fun _ => false) l (LoopRun.log run { loop := l } steps) l' n none
  drain_error {l l' : Loop τ σ} {steps : List (LoopStep τ)} {e : ε} : l.queue.gone = false →
    Drains run l steps l' (.error e) →
      ∃ n, Executes run (fun _ => false) l (LoopRun.log run { loop := l } steps) l' n (some e)
  wait {l l' : Loop τ σ} {steps : List (LoopStep τ)} {done : σ → Bool} {exit : LoopExit} :
    l.queue.gone = false → Waits run done l steps l' (.ok exit) →
      exit = l'.look done
        ∧ ∃ n, Executes run done l (LoopRun.log run { loop := l } steps) l' n none
  wait_error {l l' : Loop τ σ} {steps : List (LoopStep τ)} {done : σ → Bool} {e : ε} :
    l.queue.gone = false → Waits run done l steps l' (.error e) →
      ∃ n, Executes run done l (LoopRun.log run { loop := l } steps) l' n (some e)
  /-- A run that was cut is one drain. -/
  cut {l l₁ l' : Loop τ σ} {steps steps' : List (LoopStep τ)} {answer : Except ε Nat} :
    Cut run l steps l₁ → Drains run l₁ steps' l' answer →
      ∃ m, Drains run l (steps ++ steps') l' (answer.map (· + m))
  cut_error {l l₁ l' : Loop τ σ} {steps steps' : List (LoopStep τ)} {done : σ → Bool} {e : ε} :
    Cut run l steps l₁ → Waits run done l₁ steps' l' (.error e) →
      Drains run l (steps ++ steps') l' (.error e)
  /-- The state after a drain depends on nothing but the tasks accepted. -/
  agree {l l₁ l₂ : Loop τ σ} {steps steps' : List (LoopStep τ)} {n m : Nat} :
    l.queue.gone = false → Drains run l steps l₁ (.ok n) → Drains run l steps' l₂ (.ok m) →
      (LoopRun.log run { loop := l } steps).accepted
        = (LoopRun.log run { loop := l } steps').accepted →
      l₁.state = l₂.state ∧ n = m
  unique {l l₁ l₂ : Loop τ σ} {steps steps' : List (LoopStep τ)} {answer answer' : Except ε Nat} :
    Drains run l steps l₁ answer → LoopRun.Quiet steps → Drains run l steps' l₂ answer' →
      LoopRun.Quiet steps' → l₁ = l₂ ∧ answer = answer'
  /-- If the tasks do not post others forever, a drain comes to its end from wherever it is. -/
  returns {l : Loop τ σ} {steps : List (LoopStep τ)} {n : Nat} :
    LoopRun.Serves run (fun _ => false) { loop := l } steps n →
    (∃ bound, ∀ more m, LoopRun.Quiet more → LoopRun.Serves run (fun _ => false)
      (LoopRun.takeAll run { loop := l } steps) more m → m ≤ bound) →
    ∃ more l' answer, LoopRun.Quiet more ∧ Drains run l (steps ++ more) l' answer
  functions (w : Work τ σ ε) : w.run = run → ∀ l, Computed w l

theorem serial (run : τ → σ → TaskRun τ σ ε) : Serial run where
  books := booked run
  drain := Drains.executes
  drain_error := Drains.executes_of_error
  wait := Waits.executes
  wait_error := Waits.executes_of_error
  cut := Cut.drains
  cut_error := Cut.drains_of_error
  agree := Drains.agree
  unique := Drains.unique
  returns h := fun ⟨bound, hb⟩ => Drains.exists_of_serves h bound hb
  functions := by
    rintro w rfl
    exact computed w

end Loop

end EngineShell
