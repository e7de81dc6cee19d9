import EngineShell.Proofs.Schedules

/-!
# Every command is counted once

A command is counted where it is answered or dropped: at the sink, if it is the engine's question or
comes after the close, and else on the presentation thread. Under the lenient policy no command is
left out and none is counted twice (`accounted_takeAll`), because a command in the queue always
finds a dispatcher as long as there is a session.
-/

namespace EngineShell

def Counter.ofCommand : Counter → Bool
  | .applied | .ignored | .rejected | .query | .afterClose => true
  | _ => false

namespace Metrics

/-- The commands that are counted, the late ones among them. -/
def commands (m : Metrics) : Nat :=
  m.commandsTotal + m.afterClose

theorem commands_add (a b : Metrics) : (a + b).commands = a.commands + b.commands := by
  simp only [commands, commandsTotal, add_def, add]
  omega

theorem commands_record (m : Metrics) (counter : Counter) :
    (m.record counter).commands = m.commands + counter.ofCommand.toNat := by
  cases counter <;> simp only [record, commands, commandsTotal, Counter.ofCommand,
    Bool.toNat_true, Bool.toNat_false] <;> omega

theorem commands_record_of {counter : Counter} (h : counter.ofCommand = true) (m : Metrics) :
    (m.record counter).commands = m.commands + 1 := by
  rw [commands_record, h, Bool.toNat_true]

end Metrics

theorem Dispatch.ofCommand_counter (d : Dispatch) : d.counter.ofCommand = true := by
  cases d <;> rfl

theorem Widgets.ofCommand_carry (w : Widgets) (c : Command) : (w.carry c).1.ofCommand = true := by
  obtain ⟨d, -, hd⟩ := w.apply_lenient c false
  exact hd ▸ d.ofCommand_counter

theorem TaskQueue.commands_postAll {τ : Type} (q : TaskQueue τ) (ts : List τ) :
    (q.postAll ts).metrics.commands = q.metrics.commands := by
  induction ts generalizing q with
  | nil => rfl
  | cons t ts ih =>
    refine (ih (q.post t)).trans ?_
    rw [post]
    split_ifs <;> exact Metrics.commands_record _ _

namespace LoginFlow

theorem metrics_showFatal (l : LoginFlow) (m : String) : (l.showFatal m).metrics = l.metrics := by
  unfold showFatal
  split_ifs <;> rfl

theorem metrics_start (l : LoginFlow) (saved : Option SavedRecord) (stored : Prefill) :
    (l.start saved stored).metrics = l.metrics := by
  unfold start
  split
  · exact l.metrics_showFatal _
  · rfl
  · split_ifs <;> rfl

theorem metrics_submit {l l' : LoginFlow} {c : Credentials} (h : l.submit c = .ok l') :
    l'.metrics = l.metrics := by
  unfold submit at h
  split_ifs at h
  cases h
  rfl

theorem commands_tap (l : LoginFlow) (now : Nat) :
    (l.tap now).2.metrics.commands = l.metrics.commands := by
  unfold tap
  dsimp only
  split
  · rfl
  · rw [metrics_showFatal]
    exact Metrics.commands_record _ _

theorem commands_onOutcome (l : LoginFlow) (o : Outcome) :
    (l.onOutcome o).metrics.commands = l.metrics.commands := by
  unfold onOutcome
  dsimp only
  split_ifs
  · rfl
  · split
    · rfl
    · exact Metrics.commands_record _ _
    · rw [metrics_showFatal]
      exact Metrics.commands_record _ _

end LoginFlow

namespace Session

theorem metrics_reassert (s : Session) (p : Platform) : (s.reassert p).metrics = p.metrics := by
  unfold reassert
  split_ifs <;> rfl

theorem commands_layoutPass (s : Session) (p : Platform) :
    (s.layoutPass p).2.metrics.commands = p.metrics.commands := by
  unfold layoutPass
  split
  · rfl
  · exact Metrics.commands_record _ _

theorem commands_onChrome (s : Session) (p : Platform) (flags : ChromeFlags) :
    (s.onChrome p flags).2.metrics.commands = p.metrics.commands := by
  unfold onChrome
  split_ifs
  · split
    · exact s.commands_layoutPass _
    · rfl
  · rfl

theorem commands_conclude (s : Session) (p : Platform) (a : Answer) :
    (s.conclude p a).platform.metrics.commands = p.metrics.commands := by
  unfold conclude
  split
  · exact congrArg Metrics.commands (s.metrics_teardown p)
  · unfold goLive
    dsimp only
    split
    · exact Metrics.commands_record _ _
    · refine Eq.trans ?_ (p.metrics.commands_record .opened)
      exact congrArg Metrics.commands (metrics_teardown _ _)

end Session

/-- The commands that the parts of a host have counted. -/
def Host.commands (h : Host) : Nat :=
  h.metrics.commands + h.login.metrics.commands + h.platform.metrics.commands

/-- A change of a host that counts no command and keeps the policy. -/
structure Host.Uncounted (h h' : Host) : Prop where
  commands : h'.commands = h.commands
  policy : h'.policy = h.policy

namespace Host.Uncounted

variable {h h' h'' : Host}

theorem refl (h : Host) : h.Uncounted h :=
  ⟨rfl, rfl⟩

theorem trans (u : h.Uncounted h') (u' : h'.Uncounted h'') : h.Uncounted h'' :=
  ⟨u'.commands.trans u.commands, u'.policy.trans u.policy⟩

theorem of (hm : h'.metrics = h.metrics)
    (hl : h'.login.metrics.commands = h.login.metrics.commands)
    (hp : h'.platform.metrics.commands = h.platform.metrics.commands)
    (hpolicy : h'.policy = h.policy) : h.Uncounted h' := by
  refine ⟨?_, hpolicy⟩
  rw [Host.commands, hm, hl, hp, Host.commands]

theorem platform {p : Platform} (hp : p.metrics.commands = h.platform.metrics.commands) :
    h.Uncounted { h with platform := p } :=
  of rfl rfl hp rfl

theorem login {l : LoginFlow} (hl : l.metrics.commands = h.login.metrics.commands) :
    h.Uncounted { h with login := l } :=
  of rfl hl rfl rfl

theorem teardown (h : Host) (s : Session) :
    h.Uncounted { h with platform := (s.teardown h.platform).2.2 } :=
  platform (congrArg Metrics.commands (s.metrics_teardown h.platform))

theorem persist (h : Host) (c : Credentials) : h.Uncounted (h.persist c) := by
  unfold Host.persist
  split
  · exact of rfl rfl rfl rfl
  · exact refl h

theorem onDisplayModeLost (h : Host) : h.Uncounted h.onDisplayModeLost := by
  unfold Host.onDisplayModeLost
  split
  · exact platform (congrArg Metrics.commands (Session.metrics_reassert _ _))
  · exact refl h

theorem onLoginClicked (h : Host) (c : Credentials) : h.Uncounted (h.onLoginClicked c) := by
  unfold Host.onLoginClicked
  split_ifs
  · exact refl h
  · split
    · rename_i login hl
      have hsubmit : h.Uncounted { h with login } :=
        .login (congrArg Metrics.commands (LoginFlow.metrics_submit hl))
      simp only [launch, dropSlot]
      split
      · exact hsubmit.trans (of rfl rfl
          (congrArg Metrics.commands (Session.metrics_teardown _ _)) rfl)
      · exact hsubmit.trans (of rfl rfl rfl rfl)
    · exact refl h

end Host.Uncounted

namespace Turn

open Host

theorem uncounted_finish (t : Turn) (s : Session) (o : Outcome) :
    t.host.Uncounted (t.finish s o).host :=
  .teardown t.host s

theorem uncounted_terminate (t : Turn) (o : Outcome) : t.host.Uncounted (t.terminate o).host := by
  unfold terminate
  split
  · exact .refl _
  · exact .of rfl rfl rfl rfl
  · rename_i s _
    set t' := t.modify fun h => { h with slot := .idle } with ht'
    have hidle : t.host.Uncounted t'.host := .of rfl rfl rfl rfl
    exact (hidle.trans (t'.uncounted_finish s o)).trans (.of rfl rfl rfl rfl)

theorem uncounted_handle (h : Host) (e : HostEvent) :
    h.Uncounted (Turn.handle { host := h } e).host := by
  cases e with
  | create =>
    simp only [handle, host_modify, onCreate]
    split_ifs
    · exact .refl h
    · exact .of rfl (congrArg Metrics.commands (h.login.metrics_start _ _)) rfl rfl
  | resume => exact .onDisplayModeLost h
  | windowFocusChanged focused =>
    cases focused
    · exact .refl h
    · exact .onDisplayModeLost h
  | layoutSettled =>
    simp only [handle, host_modify, onLayoutSettled]
    split
    · exact .platform (Session.commands_layoutPass _ _)
    · exact .refl h
  | chromeVisibilityChanged flags =>
    simp only [handle, host_modify, onChrome]
    split
    · exact .platform (Session.commands_onChrome _ _ flags)
    · exact .refl h
  | backPressed =>
    simp only [handle, onBack]
    split
    · exact .of rfl rfl rfl rfl
    · exact uncounted_terminate { host := h } .success
  | destroy =>
    have hleft : h.Uncounted { h with destroyed := true, exitRequested := true } :=
      .of rfl rfl rfl rfl
    exact hleft.trans (uncounted_terminate { host := _ } .success)
  | loginClicked c => exact .onLoginClicked h c
  | iconTapped time => exact .login (h.login.commands_tap time)
  | _ => exact .of rfl rfl rfl rfl

theorem uncounted_onOutcome (h : Host) (o : Outcome) :
    h.Uncounted (onOutcome { host := h } o).host :=
  .of rfl (h.login.commands_onOutcome o) rfl rfl

theorem uncounted_accept (h : Host) (s : Session) (c : Credentials) :
    h.Uncounted (accept { host := h } s c).host := by
  have hidle : h.Uncounted { h with slot := .idle } := .of rfl rfl rfl rfl
  unfold accept
  split_ifs
  · exact hidle.trans (.persist _ c)
  · exact hidle

theorem uncounted_onOpened (h : Host) (s : Session) (failure : Option Outcome) (c : Credentials) :
    h.Uncounted (onOpened { host := h } s failure c).host := by
  by_cases hp : h.slot.phase = .opening
  · obtain ⟨held, hs⟩ := Slot.eq_opening hp
    have hidle := uncounted_accept h s c
    rw [onOpened_of_opening (t := { host := h }) hs]
    rcases failure with _ | f
    · rcases held with _ | o
      · exact hidle.trans (.of rfl rfl (s.commands_layoutPass _) rfl)
      · exact hidle.trans (uncounted_finish _ s o)
    · exact hidle.trans (.teardown _ s)
  · rw [onOpened_of_not_opening (t := { host := h }) hp]
    exact .teardown h s

/-- A command that finds no session, or a dispatcher, is counted. -/
theorem commands_onCommand {h : Host} (hp : h.policy = .lenient)
    (hd : h.slot = .idle ∨ h.dispatching ≠ none) (c : Command) :
    ((onCommand { host := h } c).toOption.getD { host := h }).host.commands = h.commands + 1 := by
  have hcount : ∀ (h : Host) {counter : Counter}, counter.ofCommand = true →
      (h.count counter).commands = h.commands + 1 := by
    intro h counter hc
    simp only [Host.commands, Host.count, h.metrics.commands_record_of hc]
    omega
  by_cases hs : h.slot = .idle
  · simp only [onCommand, hs, if_true]
    exact hcount h rfl
  · rw [Host.onCommand_lenient hp hs (hd.resolve_left hs)]
    have hnoted : (h.noted c).host.commands = h.commands + 1 :=
      hcount _ (h.shown.overlay.ofCommand_carry c)
    rcases c.termination? with _ | o
    · exact hnoted
    · exact ((h.noted c).uncounted_terminate o).commands.trans hnoted

theorem policy_onCommand (h : Host) (c : Command) :
    ((onCommand { host := h } c).toOption.getD { host := h }).host.policy = h.policy := by
  rcases onCommand_spec { host := h } c with ⟨-, heq⟩ | ⟨-, -, heq⟩ | ⟨overlay, counter, -, heq⟩ <;>
    rw [heq]
  · rfl
  · rcases c.termination? with _ | o
    · rfl
    · exact (uncounted_terminate (note { host := h } overlay counter) o).policy

end Turn

namespace HostLoop

variable {lost : Nat} {l l' : HostLoop}

def waiting (l : HostLoop) : Nat :=
  l.queue.tasks.countP HostTask.isCommand

/-- The commands that are counted, and those that still wait. -/
def accounted (l : HostLoop) : Nat :=
  l.metrics.commands + l.waiting

theorem commands_metrics (l : HostLoop) :
    l.metrics.commands = l.state.commands + l.queue.metrics.commands := by
  rw [metrics, Metrics.commands_add, Metrics.commands_add, Metrics.commands_add, Host.commands]

theorem accounted_land {t : Turn} (ht : ∀ p ∈ t.posts, p.isCommand = false) :
    (l.land t).accounted = t.host.commands + l.queue.metrics.commands + l.waiting := by
  have hposts : (if l.queue.gone then [] else t.posts).countP HostTask.isCommand = 0 := by
    rw [List.countP_eq_zero]
    intro p hp
    split_ifs at hp
    · cases hp
    · simp [ht p hp]
  rw [accounted, commands_metrics, waiting, land, TaskQueue.commands_postAll,
    TaskQueue.postAll_tasks, List.countP_append, hposts, waiting, add_zero]

theorem accounted_post (hg : l.queue.gone = false) (task : HostTask) :
    (l.post task).accounted = l.accounted + task.isCommand.toNat := by
  have hq : (l.post task).queue.tasks = l.queue.tasks ++ [task] := TaskQueue.tasks_post hg task
  have hm : (l.post task).queue.metrics.commands = l.queue.metrics.commands :=
    l.queue.commands_postAll [task]
  rw [accounted, accounted, commands_metrics, commands_metrics, hm, waiting, hq, waiting,
    List.countP_append, List.countP_singleton]
  cases task.isCommand <;> rfl

theorem accounted_congr (hs : l'.state.commands = l.state.commands) (hq : l'.queue = l.queue) :
    l'.accounted = l.accounted := by
  rw [accounted, accounted, commands_metrics, commands_metrics, waiting, waiting, hs, hq]

theorem waiting_pop {task : HostTask} {rest : List HostTask} (h : l.queue.tasks = task :: rest) :
    l.waiting = l.pop.waiting + task.isCommand.toNat := by
  rw [waiting, waiting, pop, h, List.tail_cons, List.countP_cons]
  cases task.isCommand <;> rfl

theorem Balanced.dispatching_of_mem (hb : l.Balanced lost) {k : Nat} {c : Command}
    (h : .command k c ∈ l.queue.tasks) : l.state.dispatching = some k := by
  obtain ⟨hk, hp⟩ := hb.commands k c h
  exact (hb.dispatching k).2 ⟨hp, hk⟩

theorem Balanced.posts_turn (hb : l.Balanced lost) {step : HostStep} {t : Turn}
    (h : l.turn? step = some (l', t)) : ∀ p ∈ t.posts, p.isCommand = false := by
  rcases hb.turn_cases h with ⟨c, -, -, -, hposts⟩ | ⟨-, hs⟩
  · rw [hposts]
    exact fun p hp => nomatch hp
  · intro p hp
    obtain ⟨k, o, rfl⟩ := hs.posts p hp
    rfl

theorem uncounted_handle (l : HostLoop) (e : HostEvent) :
    l.state.Uncounted (l.state.handle e).2.host := by
  obtain ⟨seen, hseen⟩ := l.state.handle_eq e
  rw [hseen]
  exact (Turn.uncounted_handle l.state e).trans (.of rfl rfl rfl rfl)

theorem policy_take (l : HostLoop) (step : HostStep) :
    (l.take step).state.policy = l.state.policy := by
  rcases hturn : l.turn? step with _ | ⟨l', t⟩
  · obtain ⟨platform, workers, heq⟩ := l.state_take hturn
    rw [heq]
  · rw [take_turn hturn, land]
    cases turnOf hturn with
    | event e => exact (l.uncounted_handle e).policy
    | command k c => exact Turn.policy_onCommand l.state c
    | outcome k o => exact (Turn.uncounted_onOutcome l.state o).policy
    | opened s failure c => exact (Turn.uncounted_onOpened l.state s failure c).policy

theorem Balanced.accounted_handle (hb : l.Balanced lost) (e : HostEvent) :
    (l.handle e).2.accounted = l.accounted := by
  have hturn : l.turn? (.handle e) = some (l, (l.state.handle e).2) := rfl
  rw [handle_snd, accounted_land (hb.posts_turn hturn), (l.uncounted_handle e).commands, accounted,
    commands_metrics]

theorem Balanced.accounted_runTask (hb : l.Balanced lost) (hp : l.state.policy = .lenient) :
    l.runTask.accounted = l.accounted := by
  rcases hq : l.queue.tasks with _ | ⟨task, rest⟩
  · rw [runTask_nil hq]
  have hturn : l.turn? .runTask = some (l.pop, task.turn l.state) := by
    rw [turn?, hq]
    rfl
  have htask : (task.turn l.state).host.commands = l.state.commands + task.isCommand.toNat := by
    cases task with
    | event e => exact (l.uncounted_handle e).commands
    | command k c =>
      -- the one branch that does not count needs a slot without a dispatcher
      have hd := hb.dispatching_of_mem (hq ▸ List.mem_cons_self)
      exact Turn.commands_onCommand hp (.inr (by simp [hd])) c
    | outcome k o => exact (Turn.uncounted_onOutcome l.state o).commands
    | opened s failure c => exact (Turn.uncounted_onOpened l.state s failure c).commands
  have hmetrics : l.pop.queue.metrics = l.queue.metrics := rfl
  rw [runTask_cons hq, accounted_land (hb.posts_turn hturn), htask, hmetrics, accounted,
    commands_metrics, waiting_pop hq]
  omega

theorem Balanced.accounted_command (hb : l.Balanced lost) (k : Nat) (c : Command) :
    (l.command k c).2.accounted = l.accounted + 1 := by
  have hcount : ∀ {counter : Counter}, counter.ofCommand = true →
      (l.modifyPlatform (·.count counter)).accounted = l.accounted + 1 := by
    intro counter hc
    have hs : (l.modifyPlatform (·.count counter)).state.commands = l.state.commands + 1 :=
      congrArg (l.state.metrics.commands + l.state.login.metrics.commands + ·)
        (l.state.platform.metrics.commands_record_of hc)
    have hq : (l.modifyPlatform (·.count counter)).queue = l.queue := rfl
    rw [accounted, commands_metrics, waiting, hs, hq, accounted, commands_metrics, waiting]
    omega
  rcases l.command_cases k c with ⟨-, heq⟩ | ⟨-, -, heq⟩ | ⟨-, -, heq⟩ <;> rw [heq]
  · exact hcount rfl
  · exact hcount rfl
  · exact accounted_post hb.running _

end HostLoop

def HostStep.isCommand : HostStep → Bool
  | command .. => true
  | _ => false

namespace HostLoop

variable {lost : Nat} {l l' : HostLoop}

theorem Balanced.accounted_quiet (hb : l.Balanced lost) (hp : l.state.policy = .lenient)
    {step : HostStep} (hs : step.isCommand = false) :
    (l.take step).accounted = l.accounted := by
  cases step with
  | command k c => cases hs
  | handle e => exact hb.accounted_handle e
  | post e => exact accounted_post hb.running (.event e)
  | runTask => exact hb.accounted_runTask hp
  | enter i =>
    rcases l.enter_cases i with heq | ⟨w, -, -, heq⟩ <;> rw [HostLoop.take, heq]
    exact accounted_congr rfl rfl
  | answer i a =>
    rcases l.answer_cases i a with heq | ⟨w, o, -, -, rfl, heq⟩ <;> rw [HostLoop.take, heq]
    refine accounted_congr ?_ rfl
    exact (Host.Uncounted.platform (h := l.state) (w.session.commands_conclude _ a)).commands
  | deliver i =>
    rcases l.deliver_cases i with heq | ⟨w, failure, o, -, -, heq⟩ <;> rw [HostLoop.take, heq]
    exact accounted_post hb.running (.outcome w.session.sink o)
  | complete i =>
    rcases l.complete_cases i with heq | ⟨w, failure, -, -, heq⟩ <;> rw [HostLoop.take, heq]
    exact accounted_post (l := l.dropWorker i) hb.running (.opened _ failure _)
  | refuseWindow => exact accounted_congr rfl rfl
  | reveal => exact accounted_congr rfl rfl

/-- A command that is sent is counted or waits from then on, and no other step makes a
difference. -/
theorem Balanced.accounted_take (hb : l.Balanced lost) (hp : l.state.policy = .lenient)
    (step : HostStep) : (l.take step).accounted = l.accounted + step.isCommand.toNat := by
  cases hs : step.isCommand
  · exact hb.accounted_quiet hp hs
  · cases step with
    | command k c => exact hb.accounted_command k c
    | _ => cases hs

/-- In every run under the lenient policy the commands sent so far are those that are counted and
those that wait, and a command that waits finds the dispatcher of its attempt. -/
theorem accounted_takeAll {s : HostSetup} {l₀ : HostLoop} (h₀ : s.start = .ok l₀)
    (hp : s.policy = .lenient) (steps : List HostStep) :
    steps.countP HostStep.isCommand
        = (l₀.takeAll steps).metrics.queries + (l₀.takeAll steps).metrics.applied
          + (l₀.takeAll steps).metrics.ignored + (l₀.takeAll steps).metrics.rejected
          + (l₀.takeAll steps).metrics.afterClose
          + (l₀.takeAll steps).queue.tasks.countP HostTask.isCommand
      ∧ ∀ k c, .command k c ∈ (l₀.takeAll steps).queue.tasks →
        (l₀.takeAll steps).state.dispatching = some k := by
  have hb : ∀ steps, ∃ lost, (l₀.takeAll steps).Balanced lost := fun steps =>
    (balanced_takeAll (balanced_start h₀) steps).imp fun _ h => h.1
  have hcount : (l₀.takeAll steps).accounted = steps.countP HostStep.isCommand
      ∧ (l₀.takeAll steps).state.policy = .lenient := by
    induction steps using List.reverseRecOn with
    | nil =>
      obtain ⟨layout, rfl⟩ := start_eq h₀
      exact ⟨rfl, hp⟩
    | append_singleton steps step ih =>
      obtain ⟨lost, hb⟩ := hb steps
      rw [takeAll_concat, List.countP_append, List.countP_singleton, hb.accounted_take ih.2 step,
        ih.1, policy_take]
      refine ⟨?_, ih.2⟩
      cases step.isCommand <;> rfl
  obtain ⟨lost, hb⟩ := hb steps
  refine ⟨?_, fun k c h => hb.dispatching_of_mem h⟩
  rw [← hcount.1, accounted, waiting, Metrics.commands, Metrics.commandsTotal]
  omega

/-- A run over two sessions with commands of every kind, the last of which still waits. -/
def sundry : List HostStep :=
  [.handle .create, .handle (.loginClicked {}), .enter 0, .command 0 (.of .queryFinishing ""),
    .command 0 (.of .setTitle "first"), .command 0 (.of .startImageProgress "much"), .runTask,
    .runTask, .answer 0 .accepted, .complete 0, .runTask,
    .command 0 (.of .recoverableTermination "over"), .command 0 ⟨99, ""⟩, .runTask, .runTask,
    .command 0 (.of .setTitle "late"), .runTask, .handle (.loginClicked {}), .enter 0,
    .command 1 ⟨99, ""⟩, .runTask, .command 1 (.of .setTitle "second")]

/-- Such a run sends eight commands, seven of which are counted. -/
theorem accounted_sundry :
    HostSetup.start { policy := .lenient } = .ok (of { policy := .lenient })
      ∧ sundry.countP HostStep.isCommand = 8
      ∧ ((of { policy := .lenient }).takeAll sundry).metrics.commands = 7
      ∧ ((of { policy := .lenient }).takeAll sundry).state.dispatching = some 1 := by
  have h₀ : HostSetup.start { policy := .lenient } = .ok (of { policy := .lenient }) := rfl
  obtain ⟨hcount, hd⟩ := accounted_takeAll h₀ rfl sundry
  have hwaits : ((of { policy := .lenient }).takeAll sundry).queue.tasks
      = [.command 1 (.of .setTitle "second")] := by decide +kernel
  refine ⟨h₀, rfl, ?_, hd _ _ (hwaits ▸ List.mem_singleton_self _)⟩
  rw [hwaits, show sundry.countP HostStep.isCommand = 8 from rfl] at hcount
  rw [Metrics.commands, Metrics.commandsTotal]
  simp only [List.countP_singleton, HostTask.isCommand, if_true] at hcount
  omega

end HostLoop

end EngineShell
