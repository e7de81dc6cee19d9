import EngineShell.Proofs.Balance
import EngineShell.Proofs.Direct
import EngineShell.Proofs.Flights

/-!
# Commands and when they are carried out

The commands of a session go through a queue, and the outcome that ends the session waits behind
those that were sent before. What comes of them is nevertheless what would come of them if each was
carried out at once (`Direct`): `HostLoop.ahead` is what a host will have come to when everything
that waits has been run, a task that runs does not change it, and a command that is sent changes it
as a direct one does. So it does not matter when the presentation thread runs the tasks
(`dispatched_feeding`).
-/

namespace EngineShell

namespace Metrics

/-- All counts but that of the tasks. -/
def besideTasks (m : Metrics) : Metrics :=
  { m with tasks := 0 }

theorem add_def (a b : Metrics) : a + b = a.add b := rfl

theorem record_add (a b : Metrics) (counter : Counter) :
    a.record counter + b = (a + b).record counter := by
  cases counter <;> simp [record, add_def, add, Nat.add_right_comm]

theorem add_record (a b : Metrics) (counter : Counter) :
    a + b.record counter = (a + b).record counter := by
  cases counter <;> rfl

theorem besideTasks_record {counter : Counter} (h : counter ≠ .task) (m : Metrics) :
    (m.record counter).besideTasks = m.besideTasks.record counter := by
  cases counter <;> first | rfl | exact (h rfl).elim

theorem besideTasks_record_task (m : Metrics) : (m.record .task).besideTasks = m.besideTasks := rfl

end Metrics

/-- The command that a task carries out. -/
def HostTask.command? : HostTask → Option Command
  | command _ c => some c
  | _ => none

namespace Direct

/-- A task of the queue is run. -/
def run (d : Direct) : HostTask → Direct
  | .command _ c => d.carry c
  | .outcome _ o => d.receive o
  | _ => d

variable {d : Direct}

theorem foldl_run_count (d : Direct) (counter : Counter) (tasks : List HostTask) :
    tasks.foldl run (d.count counter) = (tasks.foldl run d).count counter := by
  induction tasks generalizing d with
  | nil => rfl
  | cons task tasks ih =>
    rw [List.foldl_cons, List.foldl_cons, ← ih]
    congr 1
    cases task with
    | command k c => exact carry_count d counter c
    | _ => rfl

theorem slot_foldl_run (h : d.slot = .idle) (tasks : List HostTask) :
    (tasks.foldl run d).slot = .idle := by
  induction tasks generalizing d with
  | nil => exact h
  | cons task tasks ih =>
    refine ih ?_
    cases task with
    | command k c => exact (congrArg slot (carry_of_idle h c)).trans h
    | _ => exact h

/-- An outcome may as well be shown behind commands that come too late. -/
theorem foldl_run_receive (h : d.slot = .idle) {tasks : List HostTask}
    (hno : ∀ task ∈ tasks, task.isOutcome = false) (o : Outcome) :
    tasks.foldl run (d.receive o) = (tasks.foldl run d).receive o := by
  induction tasks generalizing d with
  | nil => rfl
  | cons task tasks ih =>
    rw [List.forall_mem_cons] at hno
    rw [List.foldl_cons, List.foldl_cons]
    cases task with
    | command k c =>
      have hlate : (d.receive o).run (.command k c) = (d.run (.command k c)).receive o := by
        rw [run, run, carry_of_idle h, carry_of_idle (d := d.receive o) h]
        rfl
      rw [hlate]
      exact ih ((congrArg slot (carry_of_idle h c)).trans h) hno.2
    | outcome k o => simp [HostTask.isOutcome] at hno
    | _ => exact ih h hno.2

theorem foldl_run_eq {tasks : List HostTask} (hno : ∀ task ∈ tasks, task.isOutcome = false) :
    tasks.foldl run d = (tasks.filterMap HostTask.command?).foldl carry d := by
  induction tasks generalizing d with
  | nil => rfl
  | cons task tasks ih =>
    rw [List.forall_mem_cons] at hno
    cases task with
    | outcome k o => simp [HostTask.isOutcome] at hno
    | _ => exact ih hno.2

end Direct

theorem Session.metrics_teardown (s : Session) (p : Platform) :
    (s.teardown p).2.2.metrics = p.metrics := by
  by_cases h : s.stage = .tornDown
  · simp [teardown, isTornDown, h]
  · rw [teardown_eq p h]
    rfl

namespace HostLoop

variable {k : Nat} {l l' : HostLoop} {step : HostStep}

/-- What is seen of a host whose form has got some outcomes. -/
def seen (l : HostLoop) (received : List Outcome) : Direct where
  login := l.state.login
  slot := l.state.slot
  received
  counts := (l.state.metrics + l.state.platform.metrics + l.queue.metrics).besideTasks

/-- What will be seen of a host when everything that waits has been run. -/
def ahead (l : HostLoop) (received : List Outcome) : Direct :=
  l.queue.tasks.foldl Direct.run (l.seen received)

theorem seen_count (l : HostLoop) (got : List Outcome) {counter : Counter}
    (h : counter ≠ .task) : (l.modify (·.count counter)).seen got = (l.seen got).count counter := by
  have : (l.state.metrics.record counter + l.state.platform.metrics + l.queue.metrics).besideTasks
      = ((l.state.metrics + l.state.platform.metrics + l.queue.metrics).besideTasks).record
        counter := by
    rw [Metrics.record_add, Metrics.record_add, Metrics.besideTasks_record h]
  simp only [seen, Direct.count, ← this]
  rfl

theorem seen_platform_count (l : HostLoop) (got : List Outcome) {counter : Counter}
    (h : counter ≠ .task) :
    (l.modifyPlatform (·.count counter)).seen got = (l.seen got).count counter := by
  have : (l.state.metrics + l.state.platform.metrics.record counter + l.queue.metrics).besideTasks
      = ((l.state.metrics + l.state.platform.metrics + l.queue.metrics).besideTasks).record
        counter := by
    rw [Metrics.add_record, Metrics.record_add, Metrics.besideTasks_record h]
  simp only [seen, Direct.count, ← this]
  rfl

theorem ahead_post (hg : l.queue.gone = false) (task : HostTask) (got : List Outcome) :
    (l.post task).ahead got = (l.ahead got).run task := by
  have hq : (l.post task).queue.tasks = l.queue.tasks ++ [task] := TaskQueue.tasks_post hg task
  have hseen : (l.post task).seen got = l.seen got := by
    have : (l.queue.post task).metrics = l.queue.metrics.record .task := by
      simp [TaskQueue.post, hg]
    have hcounts : (l.state.metrics + l.state.platform.metrics
        + (l.queue.post task).metrics).besideTasks
          = (l.state.metrics + l.state.platform.metrics + l.queue.metrics).besideTasks := by
      rw [this, Metrics.add_record, Metrics.besideTasks_record_task]
    simp only [seen, ← hcounts]
    rfl
  rw [ahead, hq, hseen, List.foldl_append]
  rfl

theorem command_cases (l : HostLoop) (k : Nat) (c : Command) :
    (c.code = Action.queryFinishing.code
        ∧ (l.command k c).2 = l.modifyPlatform (·.count .query))
      ∨ (c.code ≠ Action.queryFinishing.code ∧ ¬ l.state.platform.IsOpen k
        ∧ (l.command k c).2 = l.modifyPlatform (·.count .afterClose))
      ∨ c.code ≠ Action.queryFinishing.code ∧ l.state.platform.IsOpen k
        ∧ (l.command k c).2 = l.post (.command k c) := by
  by_cases hq : c.code = Action.queryFinishing.code
  · exact .inl ⟨hq, by simp [HostLoop.command, Platform.apply, Sink.apply, hq]; rfl⟩
  · cases hc : (l.state.platform.sink k).closed
    · refine .inr (.inr ⟨hq, hc, ?_⟩)
      simp only [HostLoop.command, Platform.apply, Sink.apply, hq, hc, if_false]
      rfl
    · refine .inr (.inl ⟨hq, by simp [Platform.IsOpen, hc], ?_⟩)
      simp only [HostLoop.command, Platform.apply, Sink.apply, hq, hc, if_false, if_true]
      rfl

/-- A host that serves the commands of its newest attempt, whose session is live or is over. -/
structure Serving (k : Nat) (l : HostLoop) : Prop where
  balanced : ∃ lost, l.Balanced lost
  policy : l.state.policy = .lenient
  newest : k + 1 = l.attempts
  eventless : ∀ e, .event e ∉ l.queue.tasks
  slot : (∃ s, l.state.slot = .live s ∧ s.sink = k)
    ∨ l.state.slot = .idle ∧ ¬ l.state.platform.IsOpen k

namespace Serving

theorem live (h : l.Serving k) {s : Session} (hs : l.state.slot = .live s) :
    s.IsUp ∧ l.state.platform.IsOpen k ∧ l.state.dispatching = some k
      ∧ ∀ task ∈ l.queue.tasks, task.isOutcome = false := by
  obtain ⟨lost, hb⟩ := h.balanced
  have hup : .up s ∈ l.errands := by simp [errands, hs, Slot.errands]
  obtain ⟨hisUp, hnew, hopen⟩ := hb.accounts.fits _ hup
  have hsink : s.sink = k := Nat.succ_injective (hnew.trans h.newest.symm)
  obtain ⟨hk, hp, hq⟩ := hb.of_isOpen (hsink ▸ hopen)
  exact ⟨hisUp, hsink ▸ hopen, (hb.dispatching k).2 ⟨hp, h.newest⟩, hq⟩

theorem not_opening (h : l.Serving k) : l.state.slot.phase ≠ .opening := by
  rcases h.slot with ⟨s, hs, -⟩ | ⟨hs, -⟩ <;> simp [hs, Slot.phase]

/-- Only failed attempts may still have a completion to come. -/
theorem isOver_of_mem (h : l.Serving k) {s : Session} {failure : Option Outcome} {c : Credentials}
    (hm : .opened s failure c ∈ l.queue.tasks) : s.IsOver := by
  obtain ⟨lost, hb⟩ := h.balanced
  rcases failure with _ | f
  · have hup : .up s ∈ (l.queue.tasks : Multiset HostTask).bind HostTask.errands :=
      Multiset.mem_bind.2 ⟨_, hm, Multiset.mem_singleton_self _⟩
    have hmem : .up s ∈ l.errands := mem_errands_of_task hm (Multiset.mem_singleton_self _)
    rcases h.slot with ⟨s', hs', -⟩ | ⟨-, hclosed⟩
    · -- the session in the slot is up too, and only one errand carries the submission
      have ha := hb.accounts
      rw [errands, hs', Slot.errands, add_assoc, Multiset.singleton_add] at ha
      have := (ha.rest_of_carries rfl).2.2 _ (Multiset.mem_add.2 (.inr hup))
      simp at this
    · obtain ⟨-, hnew, hopen⟩ := hb.accounts.fits _ hmem
      have hsink : s.sink = k := Nat.succ_injective (hnew.trans h.newest.symm)
      exact (hclosed (hsink ▸ hopen)).elim
  · exact (hb.accounts.fits (.ended s)
      (mem_errands_of_task hm (Multiset.mem_singleton_self _))).1

theorem next (h : l.Serving k) (hb : ∃ lost, l'.Balanced lost)
    (hp : l'.state.policy = l.state.policy)
    (hsinks : l'.state.platform.sinks.length = l.state.platform.sinks.length)
    (hq : ∀ e, .event e ∉ l'.queue.tasks)
    (hs : (∃ s, l'.state.slot = .live s ∧ s.sink = k)
      ∨ l'.state.slot = .idle ∧ ¬ l'.state.platform.IsOpen k) : l'.Serving k :=
  ⟨hb, hp.trans h.policy, h.newest.trans hsinks.symm, hq, hs⟩

theorem command (h : l.Serving k) (got : List Outcome) (c : Command) :
    (l.take (.command k c)).Serving k
      ∧ (l.take (.command k c)).ahead got = (l.ahead got).obey c := by
  obtain ⟨lost, hb⟩ := h.balanced
  have hb' := hb.command k c
  rw [show l.take (.command k c) = (l.command k c).2 from rfl]
  rcases l.command_cases k c with ⟨hq, heq⟩ | ⟨hq, hclosed, heq⟩ | ⟨hq, hopen, heq⟩ <;>
    rw [heq] at hb' ⊢
  · refine ⟨h.next ⟨lost, hb'⟩ rfl rfl h.eventless h.slot, ?_⟩
    rw [Direct.obey, if_pos hq, ahead, seen_platform_count _ _ (by simp)]
    exact Direct.foldl_run_count _ _ _
  · -- the sink refuses the command now, a direct host would find its slot idle
    refine ⟨h.next ⟨lost, hb'⟩ rfl rfl h.eventless h.slot, ?_⟩
    have hidle : l.state.slot = .idle := by
      rcases h.slot with ⟨s, hs, -⟩ | ⟨hs, -⟩
      · exact (hclosed (h.live hs).2.1).elim
      · exact hs
    have hover : (l.ahead got).slot = .idle := Direct.slot_foldl_run hidle _
    rw [Direct.obey, if_neg hq, Direct.carry_of_idle hover, ahead,
      seen_platform_count _ _ (by simp)]
    exact Direct.foldl_run_count _ _ _
  · refine ⟨h.next ⟨lost, hb'⟩ rfl rfl (fun e he => ?_) h.slot, ?_⟩
    · rw [show (l.post (.command k c)).queue.tasks = _ from TaskQueue.tasks_post hb.running _,
        List.mem_append] at he
      simpa using he.resolve_left (h.eventless e)
    · rw [ahead_post hb.running, Direct.obey, if_neg hq]
      rfl

/-- A task that posts nothing does at once what it stands for. -/
theorem ahead_land {t : Turn} {task : HostTask} {rest : List HostTask} {got got' : List Outcome}
    (hq : l.queue.tasks = task :: rest) (hposts : t.posts = [])
    (hseen : HostLoop.seen { state := t.host, queue := l.pop.queue } got'
      = (l.seen got).run task) : (l.pop.land t).ahead got' = l.ahead got := by
  have hland : l.pop.land t = { state := t.host, queue := l.pop.queue } := by
    rw [land, hposts]
    rfl
  rw [hland, ahead, hseen, ahead, hq, show l.pop.queue.tasks = rest by rw [pop, hq]; rfl]
  rfl

theorem seen_noted (l : HostLoop) (c : Command) (got : List Outcome) :
    HostLoop.seen { state := (l.state.noted c).host, queue := l.pop.queue } got
      = (l.seen got).note c := by
  have hcounts := congrArg Direct.counts (seen_count l got (l.state.shown.overlay.carry_ne c).1)
  exact congrArg (fun counts => { (l.seen got).note c with counts }) hcounts

/-- The outcome of a session that a command ends waits behind commands that come too late. -/
theorem ahead_terminate (h : l.Serving k) {s : Session} (hs : l.state.slot = .live s) {k' : Nat}
    {c : Command} {o : Outcome} (ht : c.termination? = some o) {rest : List HostTask}
    (hq : l.queue.tasks = .command k' c :: rest) (got : List Outcome) :
    (l.pop.land ((l.state.noted c).terminate o)).ahead got = l.ahead got := by
  obtain ⟨lost, hb⟩ := h.balanced
  obtain ⟨hup, -, -, hno⟩ := h.live hs
  rw [Turn.terminate_of_live (t := l.state.noted c) hs hup.unsettled]
  set t : Turn := {
    host := { (l.state.noted c).host with
      slot := .idle
      platform := (s.teardown (l.state.noted c).host.platform).2.2
      login := (l.state.noted c).host.login.present fun p => { p with overlayAttached := false } }
    posts := [.outcome s.sink o] } with ht'
  have hclose : HostLoop.seen { state := t.host, queue := l.pop.queue } got
      = ((l.seen got).note c).close := by
    rw [← seen_noted]
    simp only [ht', seen, Direct.close, s.metrics_teardown]
  have hdirect : (l.seen got).run (.command k' c) = (((l.seen got).note c).close).receive o := by
    rw [Direct.run, Direct.carry_of_not_idle (by simp [seen, hs]), ht]
  -- what waits behind the command are commands that come too late, so the outcome may go first
  have hbehind : ∀ task ∈ rest, task.isOutcome = false := fun task htask =>
    hno task (hq ▸ List.mem_cons_of_mem _ htask)
  have hpost := ahead_post (l := { state := t.host, queue := l.pop.queue }) hb.running
    (.outcome s.sink o) got
  refine hpost.trans ?_
  rw [ahead, ahead, hclose, hq, List.foldl_cons, hdirect, Direct.foldl_run_receive rfl hbehind,
    show l.pop.queue.tasks = rest by rw [pop, hq]; rfl]
  rfl

theorem runCommand (h : l.Serving k) {k' : Nat} {c : Command} {rest : List HostTask}
    (hq : l.queue.tasks = .command k' c :: rest) (got : List Outcome) :
    (l.take .runTask).Serving k ∧ (l.take .runTask).ahead got = l.ahead got := by
  obtain ⟨lost, hb⟩ := h.balanced
  have hb' := hb.take .runTask
  have hrest : ∀ e, .event e ∉ l.pop.queue.tasks := fun e he =>
    h.eventless e (List.mem_of_mem_tail he)
  rw [show l.take .runTask = l.runTask from rfl, runTask_cons hq, HostTask.turn] at hb' ⊢
  rcases h.slot with ⟨s, hs, hsink⟩ | ⟨hs, hclosed⟩
  · obtain ⟨hup, hopen, hd, hno⟩ := h.live hs
    rw [Host.onCommand_lenient h.policy (by simp [hs]) (by simp [hd])] at hb' ⊢
    rcases ht : c.termination? with _ | o
    · simp only [ht, Except.toOption, Option.getD_some] at hb' ⊢
      refine ⟨h.next ⟨_, hb'⟩ rfl rfl hrest (.inl ⟨s, hs, hsink⟩), ahead_land hq rfl ?_⟩
      rw [seen_noted, Direct.run, Direct.carry_of_not_idle (by simp [seen, hs]), ht]
    · simp only [ht, Except.toOption, Option.getD_some] at hb' ⊢
      refine ⟨?_, h.ahead_terminate hs ht hq got⟩
      rw [Turn.terminate_of_live (t := l.state.noted c) hs hup.unsettled] at hb' ⊢
      have hclosed := s.isOpen_teardown l.state.platform (by simp [hup.live]) k
      refine h.next ⟨_, hb'⟩ rfl (s.length_sinks_teardown _) (fun e he => ?_)
        (.inr ⟨rfl, fun ho => (hclosed.1 ho).2 hsink.symm⟩)
      rcases mem_land he with he | he
      · exact hrest e he
      · simp [Host.noted, Turn.note] at he
  · rw [show Turn.onCommand { host := l.state } c = .ok _ from if_pos hs] at hb' ⊢
    refine ⟨h.next ⟨_, hb'⟩ rfl rfl hrest (.inr ⟨hs, hclosed⟩), ahead_land hq rfl ?_⟩
    rw [Direct.run, Direct.carry_of_idle hs]
    exact seen_count l got (by simp : Counter.afterClose ≠ .task)

/-- A task that is run does what was ahead. -/
theorem runTask (h : l.Serving k) (got : List Outcome) : (l.take .runTask).Serving k
    ∧ (l.take .runTask).ahead (got ++ (l.outcome? .runTask).toList) = l.ahead got := by
  obtain ⟨lost, hb⟩ := h.balanced
  rcases hq : l.queue.tasks with _ | ⟨task, rest⟩
  · rw [show l.take .runTask = l.runTask from rfl, runTask_nil hq,
      outcome?_offThread (by simp [turn?, hq]), Option.toList_none, List.append_nil]
    exact ⟨h, rfl⟩
  have htask : l.task? .runTask = some task := by simp [task?, hq]
  have hb' := hb.take .runTask
  have hrest : ∀ e, .event e ∉ l.pop.queue.tasks := fun e he =>
    h.eventless e (List.mem_of_mem_tail he)
  have hmem : task ∈ l.queue.tasks := hq ▸ List.mem_cons_self
  rw [outcome?, htask, Option.bind_some]
  cases task with
  | event e => exact (h.eventless e hmem).elim
  | command k' c =>
    rw [show (HostTask.command k' c).outcome? = none from rfl, Option.map_none, Option.toList_none,
      List.append_nil]
    exact h.runCommand hq got
  | outcome k' o =>
    rw [show l.take .runTask = l.runTask from rfl, runTask_cons hq] at hb' ⊢
    refine ⟨h.next ⟨_, hb'⟩ rfl rfl hrest ?_, ahead_land hq rfl rfl⟩
    rcases h.slot with ⟨s, hs, -⟩ | hs
    · have := (h.live hs).2.2.2 _ hmem
      simp [HostTask.isOutcome] at this
    · exact .inr hs
  | opened s failure c =>
    -- the completion of a failed attempt finds the slot taken or idle, and nothing to tear down
    have hturn : HostTask.turn (.opened s failure c) l.state = { host := l.state } := by
      rw [HostTask.turn, Turn.onOpened_of_not_opening (t := { host := l.state }) h.not_opening,
        Turn.modify, (h.isOver_of_mem hmem).teardown_eq]
    rw [show l.take .runTask = l.runTask from rfl, runTask_cons hq, hturn] at hb' ⊢
    rw [show (HostTask.opened s failure c).outcome? = none from rfl, Option.map_none,
      Option.toList_none, List.append_nil]
    exact ⟨h.next ⟨_, hb'⟩ rfl rfl hrest h.slot, ahead_land hq rfl rfl⟩

theorem tolerates (h : l.Serving k) {task : HostTask} (hm : task ∈ l.queue.tasks) :
    (task.run l.state).failure = none := by
  cases task with
  | command k' c =>
    have hok : ∃ t, Turn.onCommand { host := l.state } c = .ok t := by
      rcases h.slot with ⟨s, hs, -⟩ | ⟨hs, -⟩
      · exact ⟨_, Host.onCommand_lenient h.policy (by simp [hs]) (by simp [(h.live hs).2.2.1]) c⟩
      · exact ⟨_, if_pos hs⟩
    obtain ⟨t, ht⟩ := hok
    simp [HostTask.run, ht, HostTask.run.ofTurn]
  | _ => rfl

end Serving

def sent? : HostStep → Option Command
  | .command _ c => some c
  | _ => none

/-- However sends and tasks follow each other, what is ahead of a host is what the commands come to
that were sent. -/
theorem Serving.takeAll (h : l.Serving k) {steps : List HostStep}
    (hsteps : ∀ step ∈ steps, step = .runTask ∨ ∃ c, step = .command k c) (got : List Outcome) :
    (l.takeAll steps).Serving k ∧ (l.takeAll steps).ahead (got ++ l.outcomes steps)
      = (steps.filterMap sent?).foldl Direct.obey (l.ahead got) := by
  induction steps generalizing l got with
  | nil => exact ⟨h, by rw [outcomes, collect, List.append_nil]; rfl⟩
  | cons step steps ih =>
    rw [List.forall_mem_cons] at hsteps
    rw [outcomes, collect, ← outcomes, ← List.append_assoc]
    rcases hsteps.1 with rfl | ⟨c, rfl⟩
    · obtain ⟨hnext, hahead⟩ := h.runTask got
      have := ih hnext hsteps.2 (got ++ (l.outcome? .runTask).toList)
      rw [hahead] at this
      exact this
    · obtain ⟨hnext, hahead⟩ := h.command got c
      have := ih hnext hsteps.2 got
      rw [hahead] at this
      rw [outcome?_offThread rfl, Option.toList_none, List.append_nil]
      exact this

/-- A host that serves commands runs all that waits, and nothing fails. -/
theorem Serving.drain (h : l.Serving k) : ∃ n, l.drain = (.ok n, l.takeAll (.replicate n .runTask))
    ∧ (l.takeAll (.replicate n .runTask)).queue.tasks = [] := by
  -- the recursion is that of the drain itself, on the weight of what waits
  induction hw : l.weight HostTask.work using Nat.strong_induction_on generalizing l with
  | _ w ih =>
    subst hw
    rcases hq : l.queue.tasks with _ | ⟨task, rest⟩
    · refine ⟨0, ?_, hq⟩
      rw [HostLoop.drain, Loop.drain]
      split
      · rfl
      · rename_i h'
        simp [hq] at h'
    · have hrun : Loop.runTask HostTask.work l task rest = (none, l.take .runTask) := by
        have hfailure := h.tolerates (hq ▸ List.mem_cons_self : task ∈ l.queue.tasks)
        refine Prod.ext hfailure ?_
        simp [HostLoop.take, HostLoop.runTask, Loop.runNext?, hq]
      have hlt := Loop.weight_runTask_lt HostTask.work hq
      rw [hrun] at hlt
      obtain ⟨n, hdrain, hempty⟩ := ih _ hlt (h.runTask []).1 rfl
      refine ⟨n + 1, ?_, hempty⟩
      rw [HostLoop.drain, Loop.drain]
      split
      · rename_i h'
        simp [hq] at h'
      · rename_i t' rest' h'
        obtain ⟨rfl, rfl⟩ := List.cons_eq_cons.1 (hq.symm.trans h')
        split
        · rename_i hr
          simp [hrun] at hr
        · rename_i l' hr
          obtain rfl : l.take .runTask = l' := congrArg Prod.snd (hrun.symm.trans hr)
          rw [show Loop.drain HostTask.work (l.take .runTask) = _ from hdrain]
          rfl

/-- The steps in which everything that waits is run. -/
def draining (l : HostLoop) : List HostStep :=
  List.replicate (l.drain.1.toOption.getD 0) .runTask

/-- The engine sends commands through the sink of an attempt, batch by batch, and after each batch
and at the end everything that waits is run. -/
def feeding (k : Nat) : HostLoop → List (List Command) → List HostStep
  | l, [] => l.draining
  | l, batch :: batches =>
    let sends := batch.map (.command k)
    let steps := sends ++ (l.takeAll sends).draining
    steps ++ feeding k (l.takeAll steps) batches

def fed (k : Nat) (l : HostLoop) (batches : List (List Command)) : HostLoop :=
  l.takeAll (l.feeding k batches)

theorem Serving.draining (h : l.Serving k) : l.takeAll l.draining = l.drain.2
    ∧ (l.takeAll l.draining).queue.tasks = [] := by
  obtain ⟨n, hdrain, hempty⟩ := h.drain
  rw [HostLoop.draining, hdrain]
  exact ⟨rfl, hempty⟩

theorem mem_feeding (k : Nat) (l : HostLoop) (batches : List (List Command)) :
    ∀ step ∈ l.feeding k batches, step = .runTask ∨ ∃ c, step = .command k c := by
  induction batches generalizing l with
  | nil => exact fun step h => .inl (List.eq_of_mem_replicate h)
  | cons batch batches ih =>
    intro step h
    simp only [feeding, List.mem_append, List.mem_map] at h
    rcases h with (⟨c, -, rfl⟩ | h) | h
    · exact .inr ⟨c, rfl⟩
    · exact .inl (List.eq_of_mem_replicate h)
    · exact ih _ step h

theorem sent_feeding (k : Nat) (l : HostLoop) (batches : List (List Command)) :
    (l.feeding k batches).filterMap sent? = batches.flatten := by
  have hdraining : ∀ l : HostLoop, l.draining.filterMap sent? = [] := fun l =>
    List.filterMap_eq_nil_iff.2 fun step h => by rw [List.eq_of_mem_replicate h]; rfl
  have hsends : ∀ batch : List Command, (batch.map (HostStep.command k)).filterMap sent? = batch :=
    fun batch => by simp [List.filterMap_map, Function.comp_def, sent?]
  induction batches generalizing l with
  | nil => exact hdraining l
  | cons batch batches ih =>
    rw [feeding, List.filterMap_append, List.filterMap_append, hsends, hdraining, ih,
      List.append_nil, List.flatten_cons]

/-- After the batches nothing waits, and the host is the one that the drains lead to. -/
theorem Serving.feeding (h : l.Serving k) (batches : List (List Command)) :
    (l.fed k batches).queue.tasks = []
      ∧ l.fed k batches = (batches.foldl (fun l batch =>
        (batch.foldl (fun l c => (l.command k c).2) l).drain.2) l).drain.2 := by
  induction batches generalizing l with
  | nil => exact h.draining.symm
  | cons batch batches ih =>
    have hsends : ∀ step ∈ batch.map (HostStep.command k),
        step = .runTask ∨ ∃ c, step = .command k c := by
      intro step hm
      obtain ⟨c, -, rfl⟩ := List.mem_map.1 hm
      exact .inr ⟨c, rfl⟩
    have hdrained := (h.takeAll hsends []).1.draining.1
    have hall : l.takeAll (batch.map (.command k) ++ (l.takeAll (batch.map (.command k))).draining)
        = (batch.foldl (fun l c => (l.command k c).2) l).drain.2 := by
      rw [takeAll_append, hdrained, HostLoop.takeAll, List.foldl_map]
      rfl
    have hnext : (l.takeAll (batch.map (.command k)
        ++ (l.takeAll (batch.map (.command k))).draining)).Serving k := by
      refine (h.takeAll (fun step hm => ?_) []).1
      rcases List.mem_append.1 hm with hm | hm
      · exact hsends step hm
      · exact .inl (List.eq_of_mem_replicate hm)
    rw [fed, HostLoop.feeding, takeAll_append, List.foldl_cons, ← hall]
    exact ih hnext

/-- What the engine gets back for a command that it sends. -/
def reply? (l : HostLoop) : HostStep → Option (Command × Int)
  | .command k c => some (c, (l.command k c).1)
  | _ => none

def replies (l : HostLoop) (steps : List HostStep) : List (Command × Int) :=
  l.collect reply? steps

/-- Only a question gets an answer. -/
theorem reply_eq_zero (l : HostLoop) (steps : List HostStep) :
    ∀ p ∈ l.replies steps, p.1.code ≠ Action.queryFinishing.code → p.2 = 0 := by
  induction steps generalizing l with
  | nil => simp [replies, collect]
  | cons step steps ih =>
    intro p hp hq
    rw [replies, collect, List.mem_append] at hp
    rcases hp with hp | hp
    · cases step with
      | command k c =>
        obtain rfl : p = (c, (l.command k c).1) := by simpa [reply?] using hp
        simp only [HostLoop.command, Platform.apply, Sink.apply, if_neg hq]
        split_ifs <;> rfl
      | _ => simp [reply?] at hp
    · exact ih _ p hp hq

/-- The commands that a host carries out: those that wait, and those sent that are no question. -/
def carried (l : HostLoop) (batches : List (List Command)) : List Command :=
  l.queue.tasks.filterMap HostTask.command?
    ++ batches.flatten.filter (·.code ≠ Action.queryFinishing.code)

/-- What comes of the commands of a live session that are sent in batches. Whatever is seen of the
host is what it would be if each command had been carried out at once: those before the first that
ends the session write on the overlay, the form gets that one's outcome and nothing else, and those
behind it are counted as late and do nothing else. Another way to split the same commands leads to
the same presentation, the same changes published, the same slot and the same counts, but for that
of the tasks. -/
structure Dispatched (k : Nat) (l : HostLoop) (batches : List (List Command)) : Prop where
  done : (l.fed k batches).queue.tasks = []
  direct : (l.fed k batches).seen (l.outcomes (l.feeding k batches))
    = batches.flatten.foldl Direct.obey (l.ahead [])
  overlay : (l.fed k batches).state.shown.overlay
    = l.state.shown.overlay.carryAll ((l.carried batches).takeWhile (!·.ends))
  outcomes : l.outcomes (l.feeding k batches)
    = ((l.carried batches).findSome? Command.termination?).toList
  slot : (l.fed k batches).state.slot
    = if (l.carried batches).any Command.ends then .idle else l.state.slot
  late : (l.fed k batches).state.login = (((l.carried batches).takeWhile (!·.ends)
    ++ ((l.carried batches).dropWhile (!·.ends)).take 1).foldl Direct.carry (l.seen [])).login
  afterClose : (l.fed k batches).metrics.afterClose = l.metrics.afterClose
    + ((l.carried batches).dropWhile (!·.ends)).tail.length
  replies : ∀ p ∈ l.replies (l.feeding k batches),
    p.1.code ≠ Action.queryFinishing.code → p.2 = 0
  split : ∀ batches' : List (List Command), batches'.flatten = batches.flatten →
    (l.fed k batches').state.login.board = (l.fed k batches).state.login.board
      ∧ (l.fed k batches').state.slot = (l.fed k batches).state.slot
      ∧ (l.fed k batches').metrics.besideTasks = (l.fed k batches).metrics.besideTasks

theorem metrics_seen (l : HostLoop) (got : List Outcome) :
    (l.seen got).metrics.besideTasks = l.metrics.besideTasks := by
  simp only [seen, Direct.metrics, Metrics.besideTasks, HostLoop.metrics, Metrics.add_def,
    Metrics.add, Metrics.mk.injEq, true_and]
  omega

theorem Balanced.serving {lost : Nat} (hb : l.Balanced lost) {s : Session}
    (hs : l.state.slot = .live s) (hp : l.state.policy = .lenient)
    (hq : ∀ e, .event e ∉ l.queue.tasks) : l.Serving s.sink := by
  have hup : .up s ∈ l.errands := by simp [errands, hs, Slot.errands]
  exact ⟨⟨lost, hb⟩, hp, (hb.accounts.fits _ hup).2.1, hq, .inl ⟨s, hs, rfl⟩⟩

theorem Serving.seen_fed (h : l.Serving k) (batches : List (List Command)) :
    (l.fed k batches).seen (l.outcomes (l.feeding k batches))
      = batches.flatten.foldl Direct.obey (l.ahead []) := by
  have hahead := (h.takeAll (mem_feeding k l batches) []).2
  rw [sent_feeding, List.nil_append, ← fed, ahead, (h.feeding batches).1] at hahead
  exact hahead

theorem Serving.dispatched (h : l.Serving k) {s : Session} (hs : l.state.slot = .live s)
    (batches : List (List Command)) : l.Dispatched k batches := by
  have hdirect := h.seen_fed batches
  have hahead : l.ahead [] = _ := Direct.foldl_run_eq (h.live hs).2.2.2
  obtain ⟨n, hn⟩ := Direct.foldl_obey (l.ahead []) batches.flatten
  have hsettles : (l.seen []).Settles (l.carried batches)
      ((l.fed k batches).seen (l.outcomes (l.feeding k batches))) := by
    rw [hdirect, hn, hahead, ← List.foldl_append]
    exact (Direct.settles_foldl (by simp [seen, hs]) _).ask n
  have hbefore := congrArg Metrics.afterClose (metrics_seen l [])
  have hafter := congrArg Metrics.afterClose
    (metrics_seen (l.fed k batches) (l.outcomes (l.feeding k batches)))
  refine ⟨(h.feeding batches).1, hdirect, hsettles.overlay, hsettles.received, hsettles.slot,
    hsettles.login, ?_, reply_eq_zero l _, fun batches' hsame => ?_⟩
  · exact hafter.symm.trans (hsettles.afterClose.trans (congrArg (· + _) hbefore))
  · have hsplit := (h.seen_fed batches').trans (hsame ▸ hdirect.symm)
    refine ⟨congrArg (fun d => d.login.board) hsplit, congrArg Direct.slot hsplit, ?_⟩
    rw [← metrics_seen _ (l.outcomes (l.feeding k batches')), hsplit, metrics_seen]

/-- In every run, once a session is live under the lenient policy and no event waits: whatever the
engine sends through its sink, and however that is split into batches after which everything that
waits is run, comes to what it would come to if each command was carried out at once. -/
theorem dispatched_feeding {s : HostSetup} {l₀ : HostLoop} (h₀ : s.start = .ok l₀)
    {steps : List HostStep} (hl : l₀.takeAll steps = l) {session : Session}
    (hs : l.state.slot = .live session) (hp : l.state.policy = .lenient)
    (hq : ∀ e, .event e ∉ l.queue.tasks) (batches : List (List Command)) :
    l.Dispatched session.sink batches := by
  obtain ⟨lost, hb, -⟩ := balanced_takeAll (balanced_start h₀) steps
  rw [hl] at hb
  exact (hb.serving hs hp hq).dispatched hs batches

/-- A run that makes a session live under the lenient policy. -/
def underway : HostLoop :=
  (of { policy := .lenient }).takeAll [.handle .create, .handle (.loginClicked {}), .enter 0,
    .answer 0 .accepted, .complete 0, .runTask]

/-- Batches with two commands that come too late, one of them in the batch of the command that ends
the session and the other one in the next batch. -/
def hurried : List (List Command) :=
  [[.of .setTitle "maps", .of .queryFinishing ""],
    [.of .recoverableTermination "bye", .of .setTitle "late"], [.of .fatalTermination "later"]]

/-- The form gets the outcome of the first command that ends the session, and the two behind it are
counted as late. -/
theorem dispatched_hurried : ∃ session, underway.state.slot = .live session
    ∧ underway.Dispatched session.sink hurried
    ∧ underway.outcomes (underway.feeding session.sink hurried) = [.recoverable "bye"]
    ∧ (underway.fed session.sink hurried).metrics.afterClose = 2 := by
  have h₀ : HostSetup.start { policy := .lenient } = .ok (of { policy := .lenient }) := rfl
  have hlive : underway.state.isLive = true := by decide +kernel
  obtain ⟨session, hs⟩ : ∃ session, underway.state.slot = .live session := by
    cases hslot : underway.state.slot with
    | live session => exact ⟨session, rfl⟩
    | _ => simp [Host.isLive, hslot, Slot.phase] at hlive
  have hp : underway.state.policy = .lenient := by decide +kernel
  have hq : underway.queue.tasks = [] := by decide +kernel
  have hno : ∀ e, .event e ∉ underway.queue.tasks := by simp [hq]
  have h := dispatched_feeding h₀ rfl hs hp hno hurried
  have hfirst : ((underway.carried hurried).findSome? Command.termination?).toList
      = [.recoverable "bye"] := by decide +kernel
  have hlate : underway.metrics.afterClose
      + ((underway.carried hurried).dropWhile (!·.ends)).tail.length = 2 := by decide +kernel
  exact ⟨session, hs, h, h.outcomes.trans hfirst, h.afterClose.trans hlate⟩

end HostLoop

end EngineShell
