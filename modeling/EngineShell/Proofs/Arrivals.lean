import EngineShell.Tasks.Loop
import Mathlib.Tactic

/-!
# What becomes of the tasks of a loop

A loop between the threads that post to it, in steps each of which is one thing that one thread
does: somebody posts, the loop takes the first task off the queue and runs it, that task posts, or
the loop goes away. `TaskLog` writes down what becomes of the tasks meanwhile. In every run from a
new loop they are run in the order in which they were accepted, each once, and none is lost as long
as the loop is there (`Tidy.ordered`); once it is gone, all that is posted is lost
(`log_of_gone`).
-/

namespace EngineShell

/-- A loop at work: what the task that it runs has still to post, and how that task fails, if it
does. -/
structure LoopRun (τ σ ε : Type) where
  loop : Loop τ σ
  unsent : List τ := []
  failure : Option ε := none

/-- A step of a loop: a post by anyone but the task that runs, or one by that task, the next task,
or the end of the loop. A post is one step with its count. -/
inductive LoopStep (τ : Type) where
  | post (t : τ)
  | next
  | send
  | close

def LoopStep.posted? {τ : Type} : LoopStep τ → Option τ
  | post t => some t
  | _ => none

/-- The tasks that were run, accepted by the queue, sent by other tasks, lost, and discarded with
the loop, each in order. -/
@[ext] structure TaskLog (τ : Type) where
  executed : List τ := []
  accepted : List τ := []
  sent : List τ := []
  lost : List τ := []
  discarded : List τ := []

namespace TaskLog

variable {τ : Type}

instance : Append (TaskLog τ) where
  append a b := {
    executed := a.executed ++ b.executed
    accepted := a.accepted ++ b.accepted
    sent := a.sent ++ b.sent
    lost := a.lost ++ b.lost
    discarded := a.discarded ++ b.discarded }

@[simp] theorem executed_append (a b : TaskLog τ) :
    (a ++ b).executed = a.executed ++ b.executed := rfl

@[simp] theorem accepted_append (a b : TaskLog τ) :
    (a ++ b).accepted = a.accepted ++ b.accepted := rfl

@[simp] theorem sent_append (a b : TaskLog τ) : (a ++ b).sent = a.sent ++ b.sent := rfl

@[simp] theorem lost_append (a b : TaskLog τ) : (a ++ b).lost = a.lost ++ b.lost := rfl

@[simp] theorem discarded_append (a b : TaskLog τ) :
    (a ++ b).discarded = a.discarded ++ b.discarded := rfl

@[simp] theorem append_nil (a : TaskLog τ) : a ++ ({} : TaskLog τ) = a := by
  ext1 <;> simp

@[simp] theorem nil_append (a : TaskLog τ) : ({} : TaskLog τ) ++ a = a := by
  ext1 <;> simp

theorem append_assoc (a b c : TaskLog τ) : a ++ b ++ c = a ++ (b ++ c) := by
  ext1 <;> simp

end TaskLog

namespace Loop

variable {τ σ ε : Type} (run : τ → σ → TaskRun τ σ ε)

/-- What tasks do that are run one after the other. -/
def runs (s : σ) : List τ → List (TaskRun τ σ ε)
  | [] => []
  | t :: ts => run t s :: runs (run t s).state ts

def after (s : σ) (ts : List τ) : σ :=
  ts.foldl (fun s t => (run t s).state) s

@[simp] theorem runs_concat (s : σ) (ts : List τ) (t : τ) :
    runs run s (ts ++ [t]) = runs run s ts ++ [run t (after run s ts)] := by
  induction ts generalizing s with
  | nil => rfl
  | cons u ts ih => simp [runs, ih, after]

@[simp] theorem after_concat (s : σ) (ts : List τ) (t : τ) :
    after run s (ts ++ [t]) = (run t (after run s ts)).state := by
  simp [after]

@[simp] theorem state_post (l : Loop τ σ) (t : τ) : (l.post t).state = l.state := rfl

end Loop

namespace LoopRun

variable {τ σ ε : Type} (run : τ → σ → TaskRun τ σ ε)

/-- The first task is taken off the queue, and run up to its posts. -/
def start (r : LoopRun τ σ ε) (t : τ) (rest : List τ) : LoopRun τ σ ε where
  loop := {
    state := (run t r.loop.state).state
    queue := { r.loop.queue with tasks := rest } }
  unsent := (run t r.loop.state).posts
  failure := (run t r.loop.state).failure

/-- Carry out a step. The next task has to wait for the one that runs, and so has the end; a step
that is not possible changes nothing. -/
def take (r : LoopRun τ σ ε) : LoopStep τ → LoopRun τ σ ε
  | .post t => { r with loop := r.loop.post t }
  | .next =>
    match r.unsent, r.loop.queue.tasks with
    | [], t :: rest => r.start run t rest
    | _, _ => r
  | .send =>
    match r.unsent with
    | [] => r
    | t :: ts => { r with loop := r.loop.post t, unsent := ts }
  | .close =>
    match r.unsent with
    | [] => { r with loop := { r.loop with queue := r.loop.queue.close } }
    | _ => r

def takeAll (r : LoopRun τ σ ε) (steps : List (LoopStep τ)) : LoopRun τ σ ε :=
  steps.foldl (take run) r

/-- What becomes of a task that is posted now. -/
def arrival (r : LoopRun τ σ ε) (t : τ) : TaskLog τ :=
  if r.loop.queue.gone then { lost := [t] } else { accepted := [t] }

theorem arrival_arrived (r : LoopRun τ σ ε) (t : τ) :
    (r.arrival t).accepted ++ (r.arrival t).lost = [t] := by
  unfold arrival
  split_ifs <;> rfl

@[simp] theorem arrival_executed (r : LoopRun τ σ ε) (t : τ) : (r.arrival t).executed = [] := by
  unfold arrival
  split_ifs <;> rfl

@[simp] theorem arrival_sent (r : LoopRun τ σ ε) (t : τ) : (r.arrival t).sent = [] := by
  unfold arrival
  split_ifs <;> rfl

/-- What becomes of tasks in a step. -/
def note (r : LoopRun τ σ ε) : LoopStep τ → TaskLog τ
  | .post t => r.arrival t
  | .next =>
    match r.unsent, r.loop.queue.tasks with
    | [], t :: _ => { executed := [t] }
    | _, _ => {}
  | .send =>
    match r.unsent with
    | [] => {}
    | t :: _ => { r.arrival t with sent := [t] }
  | .close =>
    match r.unsent with
    | [] => { discarded := r.loop.queue.tasks }
    | _ => {}

def log (r : LoopRun τ σ ε) : List (LoopStep τ) → TaskLog τ
  | [] => {}
  | step :: steps => r.note step ++ (r.take run step).log steps

variable {run} {r : LoopRun τ σ ε}

@[simp] theorem takeAll_nil : r.takeAll run [] = r := rfl

@[simp] theorem takeAll_cons (step : LoopStep τ) (steps : List (LoopStep τ)) :
    r.takeAll run (step :: steps) = (r.take run step).takeAll run steps := rfl

theorem takeAll_append (steps steps' : List (LoopStep τ)) :
    r.takeAll run (steps ++ steps') = (r.takeAll run steps).takeAll run steps' :=
  List.foldl_append

theorem takeAll_append_of_eq {r' : LoopRun τ σ ε} {steps : List (LoopStep τ)}
    (h : r.takeAll run steps = r') (steps' : List (LoopStep τ)) :
    r.takeAll run (steps ++ steps') = r'.takeAll run steps' := by
  rw [takeAll_append, h]

theorem log_append (steps steps' : List (LoopStep τ)) :
    r.log run (steps ++ steps') = r.log run steps ++ (r.takeAll run steps).log run steps' := by
  induction steps generalizing r with
  | nil => simp [log]
  | cons step steps ih => rw [List.cons_append, log, log, ih, TaskLog.append_assoc, takeAll_cons]

theorem log_concat (steps : List (LoopStep τ)) (step : LoopStep τ) :
    r.log run (steps ++ [step]) = r.log run steps ++ (r.takeAll run steps).note step := by
  rw [log_append, log, log, TaskLog.append_nil]

section Steps

variable {t : τ} {ts : List τ}

theorem take_next (hu : r.unsent = []) (ht : r.loop.queue.tasks = t :: ts) :
    r.take run .next = r.start run t ts := by
  simp [take, hu, ht]

theorem note_next (hu : r.unsent = []) (ht : r.loop.queue.tasks = t :: ts) :
    r.note .next = { executed := [t] } := by
  simp [note, hu, ht]

theorem take_send (hu : r.unsent = t :: ts) :
    r.take run .send = { r with loop := r.loop.post t, unsent := ts } := by
  simp [take, hu]

theorem note_send (hu : r.unsent = t :: ts) :
    r.note .send = { r.arrival t with sent := [t] } := by
  simp [note, hu]

end Steps

theorem next_cases (run : τ → σ → TaskRun τ σ ε) (r : LoopRun τ σ ε) :
    (r.take run .next = r ∧ r.note .next = {})
      ∨ ∃ t rest, r.unsent = [] ∧ r.loop.queue.tasks = t :: rest := by
  rcases hu : r.unsent with _ | ⟨u, us⟩
  · rcases ht : r.loop.queue.tasks with _ | ⟨t, rest⟩
    · simp [take, note, hu, ht]
    · exact .inr ⟨t, rest, rfl, rfl⟩
  · simp [take, note, hu]

theorem send_cases (run : τ → σ → TaskRun τ σ ε) (r : LoopRun τ σ ε) :
    (r.take run .send = r ∧ r.note .send = {}) ∨ ∃ t ts, r.unsent = t :: ts := by
  rcases hu : r.unsent with _ | ⟨t, ts⟩
  · simp [take, note, hu]
  · exact .inr ⟨t, ts, rfl⟩

theorem close_cases (run : τ → σ → TaskRun τ σ ε) (r : LoopRun τ σ ε) :
    (r.take run .close = r ∧ r.note .close = {})
    ∨ r.unsent = []
      ∧ r.take run .close = { r with loop := { r.loop with queue := r.loop.queue.close } }
      ∧ r.note .close = { discarded := r.loop.queue.tasks } := by
  rcases hu : r.unsent with _ | ⟨t, ts⟩
  · simp [take, note, hu]
  · simp [take, note, hu]

end LoopRun

namespace TaskQueue

variable {τ : Type} {q : TaskQueue τ}

theorem post_of_gone (h : q.gone = true) (t : τ) :
    q.post t = { q with metrics := q.metrics.record .taskLost } := by
  simp [post, h]

theorem post_of_not_gone (h : q.gone = false) (t : τ) :
    q.post t = { q with tasks := q.tasks ++ [t], metrics := q.metrics.record .task } := by
  simp [post, h]

end TaskQueue

namespace LoopRun

variable {τ σ ε : Type} {run : τ → σ → TaskRun τ σ ε} {g : TaskLog τ} {r₀ r : LoopRun τ σ ε}

/-- A loop that is gone has no tasks left. -/
structure Tidy (r : LoopRun τ σ ε) : Prop where
  tasks : r.loop.queue.gone = true → r.loop.queue.tasks = []
  unsent : r.loop.queue.gone = true → r.unsent = []

/-- The books of a run from `r₀` to `r`. The tasks that waited or were accepted are, in this order,
those that were run, and those that were discarded or wait now. The state is what the tasks have
made of it, and what they post was accepted, or is about to be posted. Each task is counted where it
was accepted or lost. -/
structure Ordered (run : τ → σ → TaskRun τ σ ε) (r₀ : LoopRun τ σ ε) (g : TaskLog τ)
    (r : LoopRun τ σ ε) : Prop extends r.Tidy where
  order : r₀.loop.queue.tasks ++ g.accepted
    = g.executed ++ (g.discarded ++ r.loop.queue.tasks)
  state : r.loop.state = Loop.after run r₀.loop.state g.executed
  sent : r₀.unsent ++ (Loop.runs run r₀.loop.state g.executed).flatMap TaskRun.posts
    = g.sent ++ r.unsent
  heard : g.sent.Sublist g.accepted
  marshaled : r.loop.queue.metrics.tasks = r₀.loop.queue.metrics.tasks + g.accepted.length
  lost : r.loop.queue.metrics.tasksLost = r₀.loop.queue.metrics.tasksLost + g.lost.length
  intact : r.loop.queue.gone = false → g.lost = [] ∧ g.discarded = []

/-- A task is accepted, whether the task that runs has sent it or not. -/
theorem Ordered.accept (h : Ordered run r₀ g r) (hg : r.loop.queue.gone = false) {t : τ}
    {sent unsent : List τ} (hu : r.unsent = sent ++ unsent) (hs : sent.Sublist [t]) :
    Ordered run r₀ (g ++ { accepted := [t], sent }) { r with loop := r.loop.post t, unsent } := by
  have hq : (r.loop.post t).queue = { r.loop.queue with
      tasks := r.loop.queue.tasks ++ [t], metrics := r.loop.queue.metrics.record .task } :=
    TaskQueue.post_of_not_gone hg t
  refine ⟨⟨by simp [hq, hg], by simp [hq, hg]⟩, ?_, ?_, ?_, ?_, ?_, ?_, ?_⟩
  · have := congrArg (· ++ [t]) h.order
    simpa [hq] using this
  · simpa using h.state
  · simpa [hu] using h.sent
  · simpa using h.heard.append hs
  · simp [hq, Metrics.record, h.marshaled, Nat.add_assoc]
  · simpa [hq, Metrics.record] using h.lost
  · simpa [hq] using h.intact

theorem Ordered.lose (h : Ordered run r₀ g r) (hg : r.loop.queue.gone = true) (t : τ) :
    Ordered run r₀ (g ++ { lost := [t] }) { r with loop := r.loop.post t } := by
  have hq : (r.loop.post t).queue = { r.loop.queue with
      metrics := r.loop.queue.metrics.record .taskLost } :=
    TaskQueue.post_of_gone hg t
  refine ⟨⟨by simpa [hq] using h.tasks, by simpa [hq] using h.unsent⟩, ?_, ?_, ?_, ?_, ?_, ?_, ?_⟩
  · simpa [hq] using h.order
  · simpa using h.state
  · simpa using h.sent
  · simpa using h.heard
  · simpa [hq, Metrics.record] using h.marshaled
  · simp [hq, Metrics.record, h.lost, Nat.add_assoc]
  · simp [hq, hg]

theorem Ordered.post (h : Ordered run r₀ g r) (t : τ) :
    Ordered run r₀ (g ++ r.arrival t) { r with loop := r.loop.post t } := by
  rcases hg : r.loop.queue.gone with _ | _
  · rw [arrival, hg]
    exact h.accept hg rfl (List.nil_sublist _)
  · rw [arrival, hg]
    exact h.lose hg t

theorem Ordered.send (h : Ordered run r₀ g r) {t : τ} {ts : List τ} (hu : r.unsent = t :: ts) :
    Ordered run r₀ (g ++ { r.arrival t with sent := [t] })
      { r with loop := r.loop.post t, unsent := ts } := by
  have hg : r.loop.queue.gone = false := by
    rw [← Bool.not_eq_true]
    intro hg
    simp [h.unsent hg] at hu
  rw [arrival, hg]
  exact h.accept hg hu (List.Sublist.refl _)

theorem Ordered.next (h : Ordered run r₀ g r) {t : τ} {rest : List τ} (hu : r.unsent = [])
    (ht : r.loop.queue.tasks = t :: rest) :
    Ordered run r₀ (g ++ { executed := [t] }) (r.start run t rest) := by
  have hg : r.loop.queue.gone = false := by
    rw [← Bool.not_eq_true]
    intro hg
    simp [h.tasks hg] at ht
  -- all that was sent before is accepted, so the books of the posts close with this task
  have hsent := h.sent
  rw [hu, List.append_nil] at hsent
  refine ⟨⟨by simp [start, hg], by simp [start, hg]⟩, ?_, ?_, ?_, ?_, ?_, ?_, ?_⟩
  · simpa [start, (h.intact hg).2, ht] using h.order
  · simp [start, h.state]
  · simp [start, ← hsent, h.state]
  · simpa using h.heard
  · simpa [start] using h.marshaled
  · simpa [start] using h.lost
  · simpa [start] using h.intact

theorem Ordered.close (h : Ordered run r₀ g r) (hu : r.unsent = []) :
    Ordered run r₀ (g ++ { discarded := r.loop.queue.tasks })
      { r with loop := { r.loop with queue := r.loop.queue.close } } := by
  -- a loop may be closed again, and then nothing waits that could be discarded
  refine ⟨⟨fun _ => rfl, fun _ => hu⟩, ?_, ?_, ?_, ?_, ?_, ?_, ?_⟩
  · simpa [TaskQueue.close] using h.order
  · simpa using h.state
  · simpa using h.sent
  · simpa using h.heard
  · simpa [TaskQueue.close] using h.marshaled
  · simpa [TaskQueue.close] using h.lost
  · simp [TaskQueue.close]

theorem Ordered.take (h : Ordered run r₀ g r) (step : LoopStep τ) :
    Ordered run r₀ (g ++ r.note step) (r.take run step) := by
  have same : Ordered run r₀ (g ++ {}) r := by rwa [TaskLog.append_nil]
  cases step with
  | post t => exact h.post t
  | next =>
    rcases r.next_cases run with ⟨heq, hn⟩ | ⟨t, rest, hu, ht⟩
    · rw [heq, hn]
      exact same
    · rw [take_next hu ht, note_next hu ht]
      exact h.next hu ht
  | send =>
    rcases r.send_cases run with ⟨heq, hn⟩ | ⟨t, ts, hu⟩
    · rw [heq, hn]
      exact same
    · rw [take_send hu, note_send hu]
      exact h.send hu
  | close =>
    rcases r.close_cases run with ⟨heq, hn⟩ | ⟨hu, heq, hn⟩ <;> rw [heq, hn]
    · exact same
    · exact h.close hu

theorem Tidy.ordered (h : r₀.Tidy) (run : τ → σ → TaskRun τ σ ε) (steps : List (LoopStep τ)) :
    Ordered run r₀ (r₀.log run steps) (r₀.takeAll run steps) := by
  induction steps using List.reverseRecOn with
  | nil =>
    refine ⟨h, ?_, rfl, ?_, List.Sublist.refl _, rfl, rfl, fun _ => ⟨rfl, rfl⟩⟩
    · simp [log]
    · simp [log, Loop.runs]
  | append_singleton steps step ih =>
    rw [log_concat, takeAll_append]
    exact ih.take step

theorem note_perm (run : τ → σ → TaskRun τ σ ε) (r : LoopRun τ σ ε) (step : LoopStep τ) :
    ((r.note step).accepted ++ (r.note step).lost).Perm
      (step.posted?.toList ++ (r.note step).sent) := by
  cases step with
  | post t =>
    rw [note, arrival_sent, arrival_arrived]
    rfl
  | next =>
    rcases r.next_cases run with ⟨-, hn⟩ | ⟨t, rest, hu, ht⟩
    · simp [hn, LoopStep.posted?]
    · simp [note_next hu ht, LoopStep.posted?]
  | send =>
    rcases r.send_cases run with ⟨-, hn⟩ | ⟨t, ts, hu⟩
    · simp [hn, LoopStep.posted?]
    · rw [note_send hu, arrival_arrived]
      rfl
  | close => rcases r.close_cases run with ⟨-, hn⟩ | ⟨-, -, hn⟩ <;> simp [hn, LoopStep.posted?]

/-- Whatever is posted, by anyone, is accepted or lost. -/
theorem log_perm (run : τ → σ → TaskRun τ σ ε) (r : LoopRun τ σ ε) (steps : List (LoopStep τ)) :
    ((r.log run steps).accepted ++ (r.log run steps).lost).Perm
      (steps.filterMap LoopStep.posted? ++ (r.log run steps).sent) := by
  induction steps generalizing r with
  | nil => rfl
  | cons step steps ih =>
    have hposted : (step :: steps).filterMap LoopStep.posted?
        = step.posted?.toList ++ steps.filterMap LoopStep.posted? := by
      cases step <;> rfl
    have hstep := Multiset.coe_eq_coe.2 (r.note_perm run step)
    have hsteps := Multiset.coe_eq_coe.2 (ih (r.take run step))
    rw [log, hposted, ← Multiset.coe_eq_coe]
    simp only [← Multiset.coe_add] at hstep hsteps ⊢
    simp only [TaskLog.accepted_append, TaskLog.lost_append, TaskLog.sent_append,
      ← Multiset.coe_add]
    rw [add_add_add_comm, hstep, hsteps, add_add_add_comm]

theorem note_sublist (r : LoopRun τ σ ε) (step : LoopStep τ) :
    step.posted?.toList.Sublist ((r.note step).accepted ++ (r.note step).lost) := by
  cases step with
  | post t => exact (r.arrival_arrived t).symm ▸ List.Sublist.refl _
  | _ => exact List.nil_sublist _

theorem accepted_note_of_gone (run : τ → σ → TaskRun τ σ ε) (hg : r.loop.queue.gone = true)
    (step : LoopStep τ) : (r.note step).accepted = [] := by
  have harrival : ∀ t, (r.arrival t).accepted = [] := by simp [arrival, hg]
  cases step with
  | post t => exact harrival t
  | next =>
    rcases r.next_cases run with ⟨-, hn⟩ | ⟨t, rest, hu, ht⟩
    · rw [hn]
    · rw [note_next hu ht]
  | send =>
    rcases r.send_cases run with ⟨-, hn⟩ | ⟨t, ts, hu⟩
    · rw [hn]
    · rw [note_send hu]
      exact harrival t
  | close => rcases r.close_cases run with ⟨-, hn⟩ | ⟨-, -, hn⟩ <;> rw [hn]

/-- What is posted from outside the loop is accepted in the order of the posts, and what comes too
late is lost in this order. -/
theorem Tidy.posted_sublist (h : r.Tidy) (run : τ → σ → TaskRun τ σ ε)
    (steps : List (LoopStep τ)) : (steps.filterMap LoopStep.posted?).Sublist
      ((r.log run steps).accepted ++ (r.log run steps).lost) := by
  induction steps using List.reverseRecOn with
  | nil => exact List.nil_sublist _
  | append_singleton steps step ih =>
    have hposted : (steps ++ [step]).filterMap LoopStep.posted?
        = steps.filterMap LoopStep.posted? ++ step.posted?.toList := by
      rw [List.filterMap_append]
      cases step <;> rfl
    have hstep := (r.takeAll run steps).note_sublist step
    rw [hposted, log_concat, TaskLog.accepted_append, TaskLog.lost_append]
    -- either nothing was lost before, or nothing is accepted any more
    rcases hg : (r.takeAll run steps).loop.queue.gone with _ | _
    · rw [((h.ordered run steps).intact hg).1, List.append_nil] at ih
      rw [((h.ordered run steps).intact hg).1, List.nil_append, List.append_assoc]
      exact ih.append hstep
    · rw [accepted_note_of_gone run hg, List.nil_append] at hstep
      rw [accepted_note_of_gone run hg, List.append_nil, ← List.append_assoc]
      exact ih.append hstep

/-- Once the loop is gone, whatever is posted is lost, and nothing else happens to any task. -/
theorem log_of_gone (hg : r.loop.queue.gone = true) (ht : r.loop.queue.tasks = [])
    (hu : r.unsent = []) (steps : List (LoopStep τ)) :
    r.log run steps = { lost := steps.filterMap LoopStep.posted? } := by
  induction steps generalizing r with
  | nil => rfl
  | cons step steps ih =>
    rw [log]
    cases step with
    | post t =>
      have hq : (r.loop.post t).queue = { r.loop.queue with
          metrics := r.loop.queue.metrics.record .taskLost } :=
        TaskQueue.post_of_gone hg t
      have hrest : (r.take run (.post t)).log run steps
          = { lost := steps.filterMap LoopStep.posted? } :=
        ih (by simp [take, hq, hg]) (by simp [take, hq, ht]) hu
      rw [hrest, note, arrival, hg]
      rfl
    | next =>
      rcases r.next_cases run with ⟨heq, hn⟩ | ⟨t, rest, -, hc⟩
      · rw [heq, hn, ih hg ht hu]
        rfl
      · simp [ht] at hc
    | send =>
      rcases r.send_cases run with ⟨heq, hn⟩ | ⟨t, ts, hc⟩
      · rw [heq, hn, ih hg ht hu]
        rfl
      · simp [hu] at hc
    | close =>
      rcases r.close_cases run with ⟨heq, hn⟩ | ⟨-, heq, hn⟩
      · rw [heq, hn, ih hg ht hu]
        rfl
      · have hrest : (r.take run .close).log run steps
            = { lost := steps.filterMap LoopStep.posted? } :=
          ih (by simp [heq, TaskQueue.close]) (by simp [heq, TaskQueue.close]) (by simp [heq, hu])
        rw [hrest, hn, ht]
        rfl

end LoopRun

end EngineShell
