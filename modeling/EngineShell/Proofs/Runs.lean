import EngineShell.Host.Steps
import Mathlib.Tactic

/-!
# Runs

A run is a list of steps from a loop. What holds of every run is shown by adding one step at the
end; `Meets` says that some step of a run is of a kind, seen from where the run stood just then.
A step is a turn of the presentation thread, and then `TurnOf` says what it does, or else it changes
no more of the host than its platform and its workers (`state_take`).
-/

namespace EngineShell

namespace HostTask

/-- The turn that a task is. A command that fails does nothing. -/
def turn (task : HostTask) (h : Host) : Turn :=
  match task with
  | event e => (h.handle e).2
  | command _ c => (Turn.onCommand { host := h } c).toOption.getD { host := h }
  | outcome _ o => Turn.onOutcome { host := h } o
  | opened s failure c => Turn.onOpened { host := h } s failure c

/-- Whether a task is the completion of an attempt that went well. -/
def isCompletion : HostTask → Bool
  | opened _ none _ => true
  | _ => false

end HostTask

/-- Whether a step is a turn of the presentation thread. -/
def HostStep.isTurn : HostStep → Bool
  | handle _ | runTask => true
  | _ => false

namespace HostLoop

@[simp] theorem takeAll_nil (l : HostLoop) : l.takeAll [] = l := rfl

theorem takeAll_concat (l : HostLoop) (steps : List HostStep) (step : HostStep) :
    l.takeAll (steps ++ [step]) = (l.takeAll steps).take step := by
  simp [takeAll]

theorem takeAll_append (l : HostLoop) (steps steps' : List HostStep) :
    l.takeAll (steps ++ steps') = (l.takeAll steps).takeAll steps' :=
  List.foldl_append

/-- Some step of a run is of a kind. -/
def Meets (kind : HostLoop → HostStep → Prop) (l : HostLoop) (steps : List HostStep) : Prop :=
  ∃ before step after, steps = before ++ step :: after ∧ kind (l.takeAll before) step

variable {kind : HostLoop → HostStep → Prop} {l : HostLoop}

@[simp] theorem not_meets_nil : ¬ Meets kind l [] := by
  simp [Meets]

theorem meets_cons {steps : List HostStep} {step : HostStep} :
    Meets kind l (step :: steps) ↔ kind l step ∨ Meets kind (l.take step) steps := by
  constructor
  · rintro ⟨_ | ⟨_, before⟩, step', after, heq, hk⟩
    · cases heq
      exact .inl hk
    · cases heq
      exact .inr ⟨before, step', after, rfl, hk⟩
  · rintro (hk | ⟨before, step', after, rfl, hk⟩)
    · exact ⟨[], step, steps, rfl, hk⟩
    · exact ⟨step :: before, step', after, rfl, hk⟩

instance Meets.decidable [∀ l step, Decidable (kind l step)] :
    ∀ (l : HostLoop) (steps : List HostStep), Decidable (Meets kind l steps)
  | _, [] => .isFalse not_meets_nil
  | l, step :: steps =>
    have := Meets.decidable (l.take step) steps
    decidable_of_iff (kind l step ∨ Meets kind (l.take step) steps) meets_cons.symm

theorem meets_concat {steps : List HostStep} {step : HostStep} :
    Meets kind l (steps ++ [step]) ↔ Meets kind l steps ∨ kind (l.takeAll steps) step := by
  constructor
  · rintro ⟨before, step', after, heq, hk⟩
    rcases List.eq_nil_or_concat after with rfl | ⟨after, last, rfl⟩
    · obtain ⟨rfl, h⟩ := List.append_inj' heq rfl
      obtain rfl : step = step' := by simpa using h
      exact .inr hk
    · rw [List.concat_eq_append, ← List.cons_append, ← List.append_assoc] at heq
      obtain ⟨rfl, -⟩ := List.append_inj' heq rfl
      exact .inl ⟨before, step', after, rfl, hk⟩
  · rintro (⟨before, step', after, rfl, hk⟩ | hk)
    · exact ⟨before, step', after ++ [step], by simp, hk⟩
    · exact ⟨steps, step, [], rfl, hk⟩

theorem meets_append {steps steps' : List HostStep} :
    Meets kind l (steps ++ steps') ↔ Meets kind l steps ∨ Meets kind (l.takeAll steps) steps' := by
  induction steps generalizing l with
  | nil => simp
  | cons step steps ih =>
    rw [List.cons_append, meets_cons, meets_cons, ih, or_assoc]
    rfl

/-- What a part of a run meets, the run meets. -/
theorem Meets.mono {before steps : List HostStep} (h : Meets kind l before)
    (hb : before <+: steps) : Meets kind l steps := by
  obtain ⟨after, rfl⟩ := hb
  obtain ⟨start, step, rest, rfl, hk⟩ := h
  exact ⟨start, step, rest ++ after, by simp, hk⟩

theorem start_eq {s : HostSetup} (h : s.start = .ok l) : ∃ layout, l = { state := {
    login := { machine := s.machine }
    layout
    params := .overlay s.machine.size
    policy := s.policy
    store := s.store
    disk := s.disk
    dataDir := s.dataDir
    saved := s.saved
    observers := s.observers } } := by
  unfold HostSetup.start at h
  rcases hl : Layout.standard s.machine.size.width s.machine.size.height with e | standard
  · simp [hl, bind, Except.bind] at h
  · simp only [hl, bind, Except.bind, pure, Except.pure, Except.ok.injEq] at h
    exact ⟨_, h.symm⟩

/-- A host with a set-up whose display has a layout. -/
def of (s : HostSetup) : HostLoop :=
  s.start.toOption.getD { state := {} }

/-- The task that a step runs. -/
def task? (l : HostLoop) : HostStep → Option HostTask
  | .runTask => l.queue.tasks.head?
  | _ => none

/-- The event that a step handles. -/
def event? (l : HostLoop) (step : HostStep) : Option HostEvent :=
  match step, l.task? step with
  | .handle e, _ => some e
  | _, some (.event e) => some e
  | _, _ => none

/-- The loop without the first task that waits. -/
def pop (l : HostLoop) : HostLoop :=
  { l with queue := { l.queue with tasks := l.queue.tasks.tail } }

/-- The loop once a turn has ended and its posts are in the queue. -/
def land (l : HostLoop) (t : Turn) : HostLoop :=
  { state := t.host, queue := l.queue.postAll t.posts }

theorem handle_snd (l : HostLoop) (e : HostEvent) :
    (l.handle e).2 = l.land (l.state.handle e).2 := rfl

theorem mem_post {l : HostLoop} {t u : HostTask} (h : u ∈ (l.post t).queue.tasks) :
    u ∈ l.queue.tasks ∨ u = t := by
  rw [show (l.post t).queue = l.queue.post t from rfl, TaskQueue.post] at h
  split_ifs at h
  · exact .inl h
  · simpa using h

/-- A command that gets through is the last task in the queue. -/
theorem tasks_command {l : HostLoop} (hg : l.queue.gone = false) (k : Nat) (c : Command) :
    (l.command k c).2.queue.tasks = l.queue.tasks
      ++ (l.state.platform.apply k c).1.posted.toList.map (.command k) := by
  simp [command, TaskQueue.postAll_tasks, hg]

theorem runTask_nil {l : HostLoop} (h : l.queue.tasks = []) : l.runTask = l := by
  simp [runTask, Loop.runNext?, h]

theorem runTask_cons {l : HostLoop} {t : HostTask} {rest : List HostTask}
    (h : l.queue.tasks = t :: rest) : l.runTask = l.pop.land (t.turn l.state) := by
  simp only [runTask, Loop.runNext?, h, pop, List.tail_cons, Loop.runTask, HostTask.work]
  cases t with
  | command k c =>
    simp only [HostTask.run, HostTask.turn]
    rcases Turn.onCommand { host := l.state } c with v | t <;> rfl
  | _ => rfl

/-- The turn that a step is, with the loop that it leaves its posts to. -/
def turn? (l : HostLoop) : HostStep → Option (HostLoop × Turn)
  | .handle e => some (l, (l.state.handle e).2)
  | .runTask => l.queue.tasks.head?.map fun t => (l.pop, t.turn l.state)
  | _ => none

/-- A turn handles an event, or runs the task that is the first in the queue. -/
theorem turn?_eq_some {l l' : HostLoop} {t : Turn} {step : HostStep} :
    l.turn? step = some (l', t)
      ↔ (∃ e, step = .handle e ∧ l' = l ∧ t = (l.state.handle e).2)
        ∨ ∃ task rest, step = .runTask ∧ l.queue.tasks = task :: rest ∧ l' = l.pop
          ∧ t = task.turn l.state := by
  cases step with
  | handle e => simp [turn?, eq_comm]
  | runTask => rcases h : l.queue.tasks with _ | ⟨task, rest⟩ <;> simp [turn?, h, eq_comm]
  | _ => simp [turn?]

theorem task?_eq_none {l : HostLoop} {step : HostStep} (h : l.turn? step = none) :
    l.task? step = none := by
  cases step with
  | runTask => simpa [turn?, task?] using h
  | _ => rfl

theorem take_turn {l l' : HostLoop} {t : Turn} {step : HostStep}
    (h : l.turn? step = some (l', t)) : l.take step = l'.land t := by
  rcases turn?_eq_some.1 h with ⟨e, rfl, rfl, rfl⟩ | ⟨task, rest, rfl, hq, rfl, rfl⟩
  · rfl
  · exact runTask_cons hq

/-- A turn takes the first task from the queue, or none. -/
theorem tasks_turn {l l' : HostLoop} {t : Turn} {step : HostStep}
    (h : l.turn? step = some (l', t)) :
    l.queue.tasks = (l.task? step).toList ++ l'.queue.tasks := by
  rcases turn?_eq_some.1 h with ⟨e, rfl, rfl, -⟩ | ⟨task, rest, rfl, hq, rfl, -⟩
  · rfl
  · rw [task?, pop, hq]
    rfl

theorem mem_of_turn {l l' : HostLoop} {t : Turn} {step : HostStep}
    (h : l.turn? step = some (l', t)) {u : HostTask} (hu : u ∈ l'.queue.tasks) :
    u ∈ l.queue.tasks :=
  tasks_turn h ▸ List.mem_append_right _ hu

theorem mem_land {l : HostLoop} {t : Turn} {u : HostTask} (h : u ∈ (l.land t).queue.tasks) :
    u ∈ l.queue.tasks ∨ u ∈ t.posts := by
  rw [land, TaskQueue.postAll_tasks, List.mem_append] at h
  rcases h with h | h
  · exact .inl h
  · split_ifs at h
    · simp at h
    · exact .inr h

/-- A turn by what it does, whether an event is handled at once or from the queue. -/
inductive TurnOf (l : HostLoop) : HostStep → Turn → Prop
  | event {step : HostStep} (e : HostEvent) (he : l.event? step = some e) :
    TurnOf l step (l.state.handle e).2
  | command (k : Nat) (c : Command) (rest : List HostTask)
    (hq : l.queue.tasks = .command k c :: rest) :
    TurnOf l .runTask (HostTask.turn (.command k c) l.state)
  | outcome (k : Nat) (o : Outcome) (rest : List HostTask)
    (hq : l.queue.tasks = .outcome k o :: rest) :
    TurnOf l .runTask (Turn.onOutcome { host := l.state } o)
  | opened (s : Session) (failure : Option Outcome) (c : Credentials) (rest : List HostTask)
    (hq : l.queue.tasks = .opened s failure c :: rest) :
    TurnOf l .runTask (Turn.onOpened { host := l.state } s failure c)

theorem turnOf {l l' : HostLoop} {t : Turn} {step : HostStep}
    (h : l.turn? step = some (l', t)) : l.TurnOf step t := by
  rcases turn?_eq_some.1 h with ⟨e, rfl, -, rfl⟩ | ⟨task, rest, rfl, hq, -, rfl⟩
  · exact .event e rfl
  · cases task with
    | event e => exact .event e (by simp [event?, task?, hq])
    | command k c => exact .command k c rest hq
    | outcome k o => exact .outcome k o rest hq
    | opened s failure c => exact .opened s failure c rest hq

theorem task?_of_event {l : HostLoop} {step : HostStep} {e : HostEvent}
    (h : l.event? step = some e) : l.task? step = none ∨ l.task? step = some (.event e) := by
  cases step with
  | runTask =>
    rcases hq : l.queue.tasks with _ | ⟨_ | _ | _ | _, rest⟩ <;> simp [event?, task?, hq] at h ⊢
    exact h
  | _ => exact .inl rfl

theorem turn?_of_event {l : HostLoop} {step : HostStep} {e : HostEvent}
    (h : l.event? step = some e) : ∃ l', l.turn? step = some (l', (l.state.handle e).2) := by
  cases step with
  | handle e' =>
    cases h
    exact ⟨l, rfl⟩
  | runTask =>
    rcases hq : l.queue.tasks with _ | ⟨_ | _ | _ | _, rest⟩ <;> simp [event?, task?, hq] at h
    subst h
    exact ⟨l.pop, by rw [turn?, hq]; rfl⟩
  | _ => simp [event?, task?] at h

/-- Whether a step runs the completion of an attempt that went well. -/
def completes (l : HostLoop) (step : HostStep) : Bool :=
  (l.task? step).any HostTask.isCompletion

theorem completes_runTask {l : HostLoop} {t : HostTask} {rest : List HostTask}
    (h : l.queue.tasks = t :: rest) : l.completes .runTask = t.isCompletion := by
  simp [completes, task?, h]

section Workers

variable (l : HostLoop) (i : Nat)

theorem enter_cases : l.enter i = l ∨ ∃ w, l.state.workers[i]? = some w ∧ w.stage = .starting
    ∧ l.enter i = (l.modifyPlatform w.session.begin).setWorker i { w with stage := .opening } := by
  unfold enter
  split
  · rename_i w hw
    split_ifs with hs
    · exact .inr ⟨w, hw, hs, rfl⟩
    · exact .inl rfl
  · exact .inl rfl

theorem answer_cases (a : Answer) : l.answer i a = l
    ∨ ∃ w o, l.state.workers[i]? = some w ∧ w.stage = .opening
      ∧ o = w.session.conclude l.state.platform a
      ∧ l.answer i a = (l.modifyPlatform fun _ => o.platform).setWorker i
        { w with session := o.session, stage := .ended o.failure o.delivered } := by
  unfold answer
  split
  · rename_i w hw
    split_ifs with hs
    · exact .inr ⟨w, _, hw, hs, rfl, rfl⟩
    · exact .inl rfl
  · exact .inl rfl

theorem deliver_cases : l.deliver i = l ∨ ∃ w failure o, l.state.workers[i]? = some w
    ∧ w.stage = .ended failure (some o) ∧ l.deliver i = (l.post
      (.outcome w.session.sink o)).setWorker i { w with stage := .ended failure none } := by
  unfold deliver
  split
  · rename_i w hw
    split
    · rename_i failure o hs
      exact .inr ⟨w, failure, o, hw, hs, rfl⟩
    · exact .inl rfl
  · exact .inl rfl

/-- The loop without one of its workers. -/
def dropWorker : HostLoop :=
  l.modify fun h => { h with workers := h.workers.eraseIdx i }

theorem complete_cases : l.complete i = l ∨ ∃ w failure, l.state.workers[i]? = some w
    ∧ w.stage = .ended failure none
      ∧ l.complete i = (l.dropWorker i).post (.opened w.session failure w.credentials) := by
  unfold complete
  split
  · rename_i w hw
    split
    · rename_i failure hs
      exact .inr ⟨w, failure, hw, hs, rfl⟩
    · exact .inl rfl
  · exact .inl rfl

end Workers

/-- Other threads change nothing but the platform and the workers. -/
theorem state_take (l : HostLoop) {step : HostStep} (h : l.turn? step = none) :
    ∃ platform workers, (l.take step).state = { l.state with platform, workers } := by
  cases step with
  | handle e => simp [turn?] at h
  | runTask =>
    have hq : l.queue.tasks = [] := by simpa [turn?] using h
    rw [take, runTask_nil hq]
    exact ⟨_, _, rfl⟩
  | enter i =>
    rcases l.enter_cases i with heq | ⟨w, -, -, heq⟩
    all_goals
      rw [take, heq]
      exact ⟨_, _, rfl⟩
  | answer i a =>
    rcases l.answer_cases i a with heq | ⟨w, o, -, -, -, heq⟩
    all_goals
      rw [take, heq]
      exact ⟨_, _, rfl⟩
  | deliver i =>
    rcases l.deliver_cases i with heq | ⟨w, failure, o, -, -, heq⟩
    all_goals
      rw [take, heq]
      exact ⟨_, _, rfl⟩
  | complete i =>
    rcases l.complete_cases i with heq | ⟨w, failure, -, -, heq⟩
    all_goals
      rw [take, heq]
      exact ⟨_, _, rfl⟩
  | _ => exact ⟨_, _, rfl⟩

end HostLoop

end EngineShell
