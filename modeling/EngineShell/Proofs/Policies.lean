import EngineShell.Proofs.Tallies
import EngineShell.Proofs.Writing

/-!
# Strict and lenient hosts

A strict host breaks a task off for a malformed argument where a lenient one rejects the command.
Nothing else tells the two apart (`alike_takeAll`): what breaks off has done nothing yet, so that a
lenient host is at every moment the strict one with as many more commands counted as rejected as
tasks have failed there.
-/

namespace EngineShell

namespace Dispatch

/-- The malformed argument that a command is rejected for. -/
def malformed? : Dispatch → Option Violation
  | rejected (.badArgument code argument) => some (.badArgument code argument)
  | _ => none

/-- What the strict policy makes of what a command comes to under the lenient one. -/
def strictly (d : Dispatch) : Except Violation Dispatch :=
  match d.malformed? with
  | some v => .error v
  | none => .ok d

theorem strictly_of_malformed {d : Dispatch} {v : Violation} (h : d.malformed? = some v) :
    d.strictly = .error v := by
  rw [strictly, h]

theorem strictly_of_not_malformed {d : Dispatch} (h : d.malformed? = none) :
    d.strictly = .ok d := by
  rw [strictly, h]

theorem eq_rejected {d : Dispatch} {v : Violation} (h : d.malformed? = some v) :
    d = .rejected v := by
  rcases d with _ | _ | _ | _ | ⟨_ | _⟩ <;> cases h
  rfl

end Dispatch

namespace Widgets

variable {w w' : Widgets} {d : Dispatch}

theorem malformed?_require {α : Type} {action : Action} {widget : Widget} {content : Option α}
    {change : α → α} {put : Option α → Widgets}
    (h : require action widget content change put = .ok (d, w')) : d.malformed? = none := by
  cases content with
  | none => cases h
  | some x =>
    cases h
    rfl

theorem malformed?_offer {α : Type} {content : Option α} {change : α → α}
    {put : Option α → Widgets} (h : w.offer content change put = (d, w')) :
    d.malformed? = none := by
  cases content <;> cases h <;> rfl

theorem malformed?_perform {finishing : Bool} {action : Action} {argument : String}
    (h : w.perform finishing action argument = .ok (d, w')) : d.malformed? = none := by
  cases action with
  | fatalTermination | recoverableTermination | queryFinishing =>
    cases h
    rfl
  | setTitle | showOpeningProgress | showModelProgress | hideModelProgress =>
    simp only [perform] at h
    exact malformed?_require h
  | startImageProgress =>
    simp only [perform] at h
    rcases hread : readValue .startImageProgress argument with v | value <;>
      simp only [hread, bind, Except.bind] at h
    · cases h
    · exact malformed?_require h
  | updateImageProgress =>
    simp only [perform] at h
    rcases hread : readValue .updateImageProgress argument with v | value <;>
      simp only [hread, bind, Except.bind] at h
    · cases h
    · exact malformed?_require h
  | setSecondaryValue | setPrimaryValue =>
    simp only [perform, Except.ok.injEq] at h
    exact malformed?_offer h

/-- The strict policy breaks off where the lenient one rejects a malformed argument, and is the same
everywhere else. A command that is rejected for its argument writes nothing. -/
theorem apply_strict (w : Widgets) (finishing : Bool) (c : Command) :
    ∃ d w', w.apply .lenient finishing c = .ok (d, w')
      ∧ w.apply .strict finishing c = d.strictly.map (·, w')
      ∧ (d.malformed? ≠ none → w' = w) := by
  unfold apply
  rcases c.action? with _ | action
  · exact ⟨.ignored, w, rfl, rfl, fun _ => rfl⟩
  · dsimp only
    rcases hperform : w.perform finishing action c.argument with v | ⟨d, w'⟩
    · cases v with
      | badArgument code argument => exact ⟨_, w, rfl, rfl, fun _ => rfl⟩
      | missingWidget code widget => exact ⟨_, w, rfl, rfl, fun _ => rfl⟩
    · have hd := malformed?_perform hperform
      refine ⟨d, w', rfl, ?_, fun h => (h hd).elim⟩
      rw [Dispatch.strictly_of_not_malformed hd]
      rfl

theorem write_strict (w : Widgets) (finishing : Bool) (c : Command) :
    ∃ d, (w.write .lenient finishing c).1 = .ok d
      ∧ (w.write .strict finishing c).1 = d.strictly
      ∧ (w.write .strict finishing c).2 = (w.write .lenient finishing c).2
      ∧ (d.malformed? ≠ none → (w.write .strict finishing c).2 = w) := by
  obtain ⟨d, w', hlenient, hstrict, hsame⟩ := w.apply_strict finishing c
  refine ⟨d, ?_⟩
  rw [write_eq, write_eq, hlenient, hstrict]
  rcases hd : d.malformed? with _ | v
  · rw [Dispatch.strictly_of_not_malformed hd]
    exact ⟨rfl, rfl, rfl, fun h => (h rfl).elim⟩
  · rw [Dispatch.strictly_of_malformed hd]
    exact ⟨rfl, rfl, (hsame (by simp [hd])).symm, fun _ => rfl⟩

/-- The widgets after several commands that write in place, with the host finishing or not at each.
One that breaks off does not keep the others from being carried out. -/
def writeAll (policy : Policy) (w : Widgets) (history : List (Bool × Command)) : Widgets :=
  history.foldl (fun w step => (w.write policy step.1 step.2).2) w

theorem writeAll_strict (w : Widgets) (history : List (Bool × Command)) :
    w.writeAll .strict history = w.writeAll .lenient history := by
  have hstep : (fun (w : Widgets) (step : Bool × Command) => (w.write .strict step.1 step.2).2)
      = fun w step => (w.write .lenient step.1 step.2).2 := by
    funext w step
    obtain ⟨-, -, -, h, -⟩ := w.write_strict step.1 step.2
    exact h
  rw [writeAll, hstep, writeAll]

end Widgets

namespace Metrics

def excuse (m : Metrics) (n : Nat) : Metrics :=
  { m with rejected := m.rejected + n }

theorem excuse_record (m : Metrics) (n : Nat) (counter : Counter) :
    (m.excuse n).record counter = (m.record counter).excuse n := by
  cases counter with
  | rejected => simp only [record, excuse, Nat.add_right_comm]
  | _ => rfl

end Metrics

theorem Presentation.changes_self (p : Presentation) : p.changes p = [] := by
  simp only [changes, ifDiffers, if_true, List.append_nil]

theorem Board.update_self {b : Board} {f : Presentation → Presentation} (h : f b.shown = b.shown) :
    b.update f = b := by
  rw [update, h, Presentation.changes_self, List.append_nil]

/-- A lenient host with some more commands rejected. -/
def Host.excuse (h : Host) (n : Nat) : Host :=
  { h with policy := .lenient, metrics := h.metrics.excuse n }

def Turn.excuse (t : Turn) (n : Nat) : Turn :=
  t.modify (·.excuse n)

namespace Host

variable (h : Host) (n : Nat)

theorem excuse_count (counter : Counter) :
    (h.excuse n).count counter = (h.count counter).excuse n := by
  simp only [count, excuse, Metrics.excuse_record]

theorem excuse_onCreate : (h.excuse n).onCreate = h.onCreate.excuse n := by
  cases hc : h.created <;> simp only [onCreate, excuse, hc, Bool.false_eq_true, if_true, if_false]
  rfl

theorem excuse_onDisplayModeLost :
    (h.excuse n).onDisplayModeLost = h.onDisplayModeLost.excuse n := by
  rcases hs : h.slot with _ | held | s <;> simp only [onDisplayModeLost, excuse, hs]

theorem excuse_onLayoutSettled : (h.excuse n).onLayoutSettled = h.onLayoutSettled.excuse n := by
  rcases hs : h.slot with _ | held | s <;> simp only [onLayoutSettled, excuse, hs]

theorem excuse_onChrome (flags : ChromeFlags) :
    (h.excuse n).onChrome flags = (h.onChrome flags).excuse n := by
  rcases hs : h.slot with _ | held | s <;> simp only [onChrome, excuse, hs]

theorem excuse_persist (c : Credentials) : (h.excuse n).persist c = (h.persist c).excuse n := by
  rcases hp : h.store.persist h.disk c with e | ⟨store, disk⟩ <;>
    simp only [persist, excuse, hp]

theorem excuse_launch (c : Credentials) : (h.excuse n).launch c = (h.launch c).excuse n := by
  rcases hs : h.slot with _ | held | s <;>
    simp only [launch, dropSlot, present, excuse, hs]

theorem excuse_onLoginClicked (c : Credentials) :
    (h.excuse n).onLoginClicked c = (h.onLoginClicked c).excuse n := by
  by_cases hc : (!h.created || h.destroyed) = true
  · refine (if_pos hc).trans (congrArg (excuse · n) ?_)
    exact (if_pos hc).symm
  · refine (if_neg hc).trans (Eq.trans ?_ (congrArg (excuse · n) (if_neg hc).symm))
    rcases hs : h.login.submit c with e | login <;> simp only [excuse, hs]
    exact excuse_launch { h with login } n c

end Host

namespace Turn

variable (t : Turn) (n : Nat)

theorem excuse_terminate (o : Outcome) : (t.excuse n).terminate o = (t.terminate o).excuse n := by
  rcases hs : t.host.slot with _ | held | s <;>
    simp only [terminate, excuse, host_modify, Host.excuse, hs] <;> rfl

theorem excuse_handle (e : HostEvent) : (t.excuse n).handle e = (t.handle e).excuse n := by
  have modify : ∀ f : Host → Host, f (t.host.excuse n) = (f t.host).excuse n →
      (t.excuse n).modify f = (t.modify f).excuse n :=
    fun _ hf => congrArg (fun host => { t with host }) hf
  cases e with
  | create => exact modify (·.onCreate) (t.host.excuse_onCreate n)
  | resume => exact modify (·.onDisplayModeLost) (t.host.excuse_onDisplayModeLost n)
  | windowFocusChanged focused =>
    cases focused
    · rfl
    · exact modify (·.onDisplayModeLost) (t.host.excuse_onDisplayModeLost n)
  | layoutSettled => exact modify (·.onLayoutSettled) (t.host.excuse_onLayoutSettled n)
  | chromeVisibilityChanged flags =>
    exact modify (·.onChrome flags) (t.host.excuse_onChrome n flags)
  | loginClicked c => exact modify (·.onLoginClicked c) (t.host.excuse_onLoginClicked n c)
  | backPressed =>
    have hslot : (t.excuse n).host.slot = t.host.slot := rfl
    by_cases hs : t.host.slot = .idle
    · simp only [handle, onBack, hslot, hs]
      rfl
    · simp only [handle, onBack, hslot]
      exact t.excuse_terminate n .success
  | destroy =>
    exact excuse_terminate
      (t.modify fun h => { h with destroyed := true, exitRequested := true }) n .success
  | _ => rfl

theorem excuse_accept (s : Session) (c : Credentials) :
    (t.excuse n).accept s c = (t.accept s c).excuse n := by
  unfold accept
  split_ifs
  · exact congrArg (fun host => { t with host })
      (Host.excuse_persist { t.host with slot := .idle } n c)
  · rfl

theorem excuse_onOpened (s : Session) (failure : Option Outcome) (c : Credentials) :
    (t.excuse n).onOpened s failure c = (t.onOpened s failure c).excuse n := by
  by_cases hp : t.host.slot.phase = .opening
  · obtain ⟨held, hs⟩ := Slot.eq_opening hp
    have hs' : (t.excuse n).host.slot = .opening held := hs
    rw [onOpened_of_opening hs, onOpened_of_opening hs', excuse_accept]
    cases failure <;> cases held <;> rfl
  · have hp' : (t.excuse n).host.slot.phase ≠ .opening := hp
    rw [onOpened_of_not_opening hp, onOpened_of_not_opening hp']
    rfl

end Turn

namespace Turn

def settle (t : Turn) (d : Dispatch) (overlay : Widgets) : Turn :=
  match d with
  | .terminate o => (t.note overlay .applied).terminate o
  | d => t.note overlay d.counter

theorem onCommand_eq {t : Turn} {attempt : Nat} (hs : t.host.slot ≠ .idle)
    (hd : t.host.dispatching = some attempt) (c : Command) :
    t.onCommand c = (t.host.shown.overlay.apply t.host.policy
      (t.host.platform.sink attempt).finishing c).map fun r => t.settle r.1 r.2 := by
  simp only [onCommand, hs, if_false, hd]
  rcases t.host.shown.overlay.apply t.host.policy _ c with v | ⟨d, overlay⟩
  · rfl
  · cases d <;> rfl

theorem excuse_note (t : Turn) (n : Nat) (overlay : Widgets) (counter : Counter) :
    (t.excuse n).note overlay counter = (t.note overlay counter).excuse n :=
  congrArg (fun host => { t with host })
    (Host.excuse_count (t.host.present fun p => { p with overlay }) n counter)

theorem excuse_settle (t : Turn) (n : Nat) (d : Dispatch) (overlay : Widgets) :
    (t.excuse n).settle d overlay = (t.settle d overlay).excuse n := by
  cases d with
  | terminate o =>
    rw [settle, excuse_note, excuse_terminate]
    rfl
  | _ => exact t.excuse_note n overlay _

/-- A command that is rejected, and has written nothing, is only counted. -/
theorem settle_rejected (h : Host) (n : Nat) (v : Violation) :
    settle { host := h.excuse n } (.rejected v) h.shown.overlay = { host := h.excuse (n + 1) } := by
  have hboard : h.login.present (fun p => { p with overlay := h.shown.overlay }) = h.login :=
    congrArg (fun board => { h.login with board }) (Board.update_self rfl)
  have hpresent : (h.excuse n).present (fun p => { p with overlay := h.shown.overlay })
      = h.excuse n := congrArg (fun login => { h.excuse n with login }) hboard
  simp only [settle, note, modify, hpresent]
  rfl

end Turn

namespace Host

theorem excuse_handle (h : Host) (n : Nat) (e : HostEvent) :
    ((h.excuse n).handle e).2 = (h.handle e).2.excuse n := by
  have fold : ∀ (labels : List (EventKind × String)) (t : Turn),
      (labels.map fun o => observer o.2).foldl (fun t handler => handler t e) (t.excuse n)
        = ((labels.map fun o => observer o.2).foldl (fun t handler => handler t e) t).excuse n := by
    intro labels
    induction labels with
    | nil => exact fun t => rfl
    | cons o labels ih => exact fun t => ih (observer o.2 t e)
  simp only [handle, Hooks.dispatch, handlers_hooks, List.foldl_cons]
  have hown : Turn.handle { host := h.excuse n } e = (Turn.handle { host := h } e).excuse n :=
    Turn.excuse_handle { host := h } n e
  rw [hown]
  exact fold _ _

def failure? (h : Host) (c : Command) : Option Violation :=
  match Turn.onCommand { host := h } c with
  | .ok _ => none
  | .error v => some v

/-- The malformed argument that a command is rejected for. -/
def rejection? (h : Host) (c : Command) : Option Violation :=
  if h.slot = .idle then none
  else
    match h.dispatching with
    | none => none
    | some attempt =>
      match h.shown.overlay.apply h.policy (h.platform.sink attempt).finishing c with
      | .ok (d, _) => d.malformed?
      | .error _ => none

theorem rejection?_eq {h : Host} {attempt : Nat} (hs : h.slot ≠ .idle)
    (hd : h.dispatching = some attempt) (c : Command) : h.rejection? c
      = match h.shown.overlay.apply h.policy (h.platform.sink attempt).finishing c with
        | .ok (d, _) => d.malformed?
        | .error _ => none := by
  rw [rejection?, if_neg hs, hd]

end Host

/-- A command that fails under the strict policy does nothing, and is one more that the lenient
policy rejects. Any other does the same under both. -/
theorem Turn.excuse_onCommand {h : Host} (hp : h.policy = .strict) (n : Nat) (c : Command) :
    (onCommand { host := h.excuse n } c).toOption.getD { host := h.excuse n }
        = ((onCommand { host := h } c).toOption.getD { host := h }).excuse
          (n + (h.failure? c).toList.length)
      ∧ (h.excuse n).rejection? c = h.failure? c := by
  by_cases hs : h.slot = .idle
  · have hok : onCommand { host := h } c = .ok { host := h.count .afterClose } := if_pos hs
    have hok' : onCommand { host := h.excuse n } c
        = .ok { host := (h.excuse n).count .afterClose } := if_pos hs
    rw [Host.failure?, hok, hok', Host.excuse_count]
    exact ⟨rfl, if_pos hs⟩
  rcases hd : h.dispatching with _ | attempt
  · have hok : onCommand { host := h } c = .ok { host := h } := by simp [onCommand, hs, hd]
    have hok' : onCommand { host := h.excuse n } c = .ok { host := h.excuse n } := by
      simp [onCommand, Host.excuse, hs, hd]
    have hnone : (h.excuse n).rejection? c = none := by
      simp [Host.rejection?, Host.excuse, hd]
    rw [Host.failure?, hok, hok', hnone]
    exact ⟨rfl, rfl⟩
  -- with a dispatcher everything depends on what the command comes to
  obtain ⟨d, overlay, hlenient, hstrict, hsame⟩ :=
    h.shown.overlay.apply_strict (h.platform.sink attempt).finishing c
  have hs' : (h.excuse n).slot ≠ .idle := hs
  have hd' : (h.excuse n).dispatching = some attempt := hd
  have happly : (h.excuse n).shown.overlay.apply (h.excuse n).policy
      ((h.excuse n).platform.sink attempt).finishing c = .ok (d, overlay) := hlenient
  have hok' : onCommand { host := h.excuse n } c
      = .ok (settle { host := h.excuse n } d overlay) := by
    rw [onCommand_eq (t := { host := h.excuse n }) hs' hd', happly]
    rfl
  rw [Host.rejection?_eq hs' hd', happly, hok', Host.failure?,
    onCommand_eq (t := { host := h }) hs hd, hp, hstrict]
  rcases hm : d.malformed? with _ | v
  · rw [Dispatch.strictly_of_not_malformed hm]
    exact ⟨excuse_settle { host := h } n d overlay, hm⟩
  · obtain rfl := Dispatch.eq_rejected hm
    rw [Dispatch.strictly_of_malformed hm, hsame (by simp [hm])]
    exact ⟨settle_rejected h n v, hm⟩

namespace HostLoop

variable {l l' : HostLoop}

/-- The loop of a lenient host with some more commands rejected. -/
def excuse (l : HostLoop) (n : Nat) : HostLoop :=
  l.modify (·.excuse n)

def under (l : HostLoop) (policy : Policy) : HostLoop :=
  l.modify fun h => { h with policy }

/-- The violation that the task of a step fails with. -/
def failure? (l : HostLoop) : HostStep → Option Violation
  | .runTask => (l.runNext? HostTask.work).bind (·.1)
  | _ => none

/-- The malformed argument for which a step rejects a command. -/
def rejection? (l : HostLoop) (step : HostStep) : Option Violation :=
  match l.task? step with
  | some (.command _ c) => l.state.rejection? c
  | _ => none

def failures (l : HostLoop) (steps : List HostStep) : List Violation :=
  l.collect failure? steps

theorem failure?_runTask {task : HostTask} {rest : List HostTask}
    (h : l.queue.tasks = task :: rest) : l.failure? .runTask = (task.run l.state).failure := by
  rw [failure?, Loop.runNext?, h]
  rfl

theorem failure_run_command (h : Host) (k : Nat) (c : Command) :
    ((HostTask.command k c).run h).failure = h.failure? c := by
  rw [HostTask.run, Host.failure?]
  rcases Turn.onCommand { host := h } c with v | t <;> rfl

theorem excuse_runTask (hp : l.state.policy = .strict) (n : Nat) :
    (l.excuse n).runTask = l.runTask.excuse (n + (l.failure? .runTask).toList.length)
      ∧ (l.excuse n).rejection? .runTask = l.failure? .runTask := by
  rcases hq : l.queue.tasks with _ | ⟨task, rest⟩
  · have hq' : (l.excuse n).queue.tasks = [] := hq
    have hnone : l.failure? .runTask = none := by
      rw [failure?, Loop.runNext?, hq]
      rfl
    rw [runTask_nil hq, runTask_nil hq', hnone, rejection?, task?, hq']
    exact ⟨rfl, rfl⟩
  have hq' : (l.excuse n).queue.tasks = task :: rest := hq
  rw [runTask_cons hq, runTask_cons hq', failure?_runTask hq, rejection?, task?, hq']
  have land : ∀ {m : Nat}, task.turn (l.state.excuse n) = (task.turn l.state).excuse m →
      (l.excuse n).pop.land (task.turn (l.excuse n).state)
        = (l.pop.land (task.turn l.state)).excuse m :=
    fun h => congrArg (l.pop.land ·) h
  cases task with
  | command k c =>
    obtain ⟨hturn, hreject⟩ := Turn.excuse_onCommand hp n c
    rw [failure_run_command]
    exact ⟨land hturn, hreject⟩
  | event e => exact ⟨land (l.state.excuse_handle n e), rfl⟩
  | outcome k o => exact ⟨rfl, rfl⟩
  | opened s failure c =>
    exact ⟨land (Turn.excuse_onOpened { host := l.state } n s failure c), rfl⟩

section Workers

variable (l : HostLoop) (n i : Nat)

theorem workers_excuse : (l.excuse n).state.workers = l.state.workers := rfl

theorem excuse_enter : (l.excuse n).enter i = (l.enter i).excuse n := by
  simp only [enter, workers_excuse]
  rcases l.state.workers[i]? with _ | w
  · rfl
  · dsimp only
    split_ifs <;> rfl

theorem excuse_answer (a : Answer) : (l.excuse n).answer i a = (l.answer i a).excuse n := by
  simp only [answer, workers_excuse]
  rcases l.state.workers[i]? with _ | w
  · rfl
  · dsimp only
    split_ifs <;> rfl

theorem excuse_deliver : (l.excuse n).deliver i = (l.deliver i).excuse n := by
  simp only [deliver, workers_excuse]
  rcases l.state.workers[i]? with _ | w
  · rfl
  · dsimp only
    split <;> rfl

theorem excuse_complete : (l.excuse n).complete i = (l.complete i).excuse n := by
  simp only [complete, workers_excuse]
  rcases l.state.workers[i]? with _ | w
  · rfl
  · dsimp only
    split <;> rfl

end Workers

/-- Every step takes a lenient host to where it takes the strict one, with one more command rejected
if the step fails there. -/
theorem excuse_take (hp : l.state.policy = .strict) (n : Nat) (step : HostStep) :
    (l.excuse n).take step = (l.take step).excuse (n + (l.failure? step).toList.length)
      ∧ (l.excuse n).rejection? step = l.failure? step := by
  cases step with
  | runTask => exact excuse_runTask hp n
  | handle e => exact ⟨congrArg (l.land ·) (l.state.excuse_handle n e), rfl⟩
  | enter i => exact ⟨l.excuse_enter n i, rfl⟩
  | answer i a => exact ⟨l.excuse_answer n i a, rfl⟩
  | deliver i => exact ⟨l.excuse_deliver n i, rfl⟩
  | complete i => exact ⟨l.excuse_complete n i, rfl⟩
  | _ => exact ⟨rfl, rfl⟩

theorem policy_takeAll (l : HostLoop) (steps : List HostStep) :
    (l.takeAll steps).state.policy = l.state.policy := by
  induction steps using List.reverseRecOn with
  | nil => rfl
  | append_singleton steps step ih => rw [takeAll_concat, policy_take, ih]

/-- A lenient run is the strict one with as many more commands rejected as tasks failed. -/
theorem excuse_takeAll (l : HostLoop) (steps : List HostStep) :
    (l.under .lenient).takeAll steps = ((l.under .strict).takeAll steps).excuse
      ((l.under .strict).failures steps).length := by
  induction steps using List.reverseRecOn with
  | nil => rfl
  | append_singleton steps step ih =>
    have hp : ((l.under .strict).takeAll steps).state.policy = .strict :=
      (l.under .strict).policy_takeAll steps
    have hlength : ((l.under .strict).failures (steps ++ [step])).length
        = ((l.under .strict).failures steps).length
          + (((l.under .strict).takeAll steps).failure? step).toList.length := by
      rw [failures, collect_concat, List.length_append, failures]
    rw [takeAll_concat, takeAll_concat, ih, (excuse_take hp _ step).1, hlength]

theorem outcomes_under (l : HostLoop) (steps : List HostStep) :
    (l.under .lenient).outcomes steps = (l.under .strict).outcomes steps := by
  induction steps using List.reverseRecOn with
  | nil => rfl
  | append_singleton steps step ih =>
    have hstep : ((l.under .lenient).takeAll steps).outcome? step
        = ((l.under .strict).takeAll steps).outcome? step := by
      rw [excuse_takeAll]
      cases step <;> rfl
    rw [outcomes, outcomes, collect_concat, collect_concat, hstep]
    exact congrArg (· ++ _) ih

end HostLoop

theorem Turn.onCommand_eq_error {h : Host} {c : Command} {v : Violation}
    (hv : onCommand { host := h } c = .error v) : ∃ attempt, h.dispatching = some attempt
      ∧ h.shown.overlay.apply h.policy (h.platform.sink attempt).finishing c = .error v := by
  by_cases hs : h.slot = .idle
  · have hok : onCommand { host := h } c = .ok { host := h.count .afterClose } := if_pos hs
    rw [hok] at hv
    cases hv
  rcases hd : h.dispatching with _ | attempt
  · simp [onCommand, hs, hd] at hv
  · rw [onCommand_eq (t := { host := h }) hs hd] at hv
    refine ⟨attempt, rfl, ?_⟩
    rcases happly : h.shown.overlay.apply h.policy (h.platform.sink attempt).finishing c
      with v' | r
    · simp only [happly] at hv
      rw [Except.error.inj hv]
    · simp only [happly] at hv
      cases hv

namespace HostLoop

/-- A task that fails with a violation leaves everything as it is, but that it is no longer in the
queue: the host, and also a board on which its command has written before it broke off. -/
structure Unharmed (l : HostLoop) (v : Violation) : Prop where
  popped : l.take .runTask = l.pop
  unwritten : ∃ k c attempt, l.queue.tasks.head? = some (.command k c)
    ∧ l.state.dispatching = some attempt
    ∧ (l.state.shown.overlay.write l.state.policy (l.state.platform.sink attempt).finishing c).1
      = .error v
    ∧ l.state.login.board.updateBroken (fun p => { p with overlay :=
        (p.overlay.write l.state.policy (l.state.platform.sink attempt).finishing c).2 })
      = l.state.login.board

theorem unharmed_of_failure {l : HostLoop} {step : HostStep} {v : Violation}
    (h : l.failure? step = some v) : step = .runTask ∧ l.Unharmed v := by
  cases step with
  | runTask =>
    rcases hq : l.queue.tasks with _ | ⟨task, rest⟩
    · rw [failure?, Loop.runNext?, hq] at h
      cases h
    rw [failure?_runTask hq] at h
    cases task with
    | command k c =>
      rw [failure_run_command, Host.failure?] at h
      rcases hv : Turn.onCommand { host := l.state } c with v' | t <;> rw [hv] at h <;> cases h
      obtain ⟨attempt, hd, happly⟩ := Turn.onCommand_eq_error hv
      have hwrite := l.state.shown.overlay.write_eq l.state.policy
        (l.state.platform.sink attempt).finishing c
      rw [happly] at hwrite
      refine ⟨rfl, ?_, k, c, attempt, by rw [hq]; rfl, hd, congrArg Prod.fst hwrite, ?_⟩
      · rw [take, runTask_cons hq, HostTask.turn, hv]
        rfl
      · exact congrArg (fun overlay => { l.state.login.board with
          shown := { l.state.shown with overlay } }) (congrArg Prod.snd hwrite)
    | _ => cases h
  | _ => cases h

/-- A strict host and a lenient one do the same in every run, but that the lenient one counts as
rejected the commands that the strict one fails for. A task that is about to fail there carries a
command that the lenient host is about to reject for its argument, and it leaves the host as it is.
The same holds of several commands for one set of widgets. -/
theorem alike_takeAll (l : HostLoop) (steps : List HostStep) (step : HostStep) :
    (l.under .lenient).takeAll steps = ((l.under .strict).takeAll steps).excuse
        ((l.under .strict).failures steps).length
      ∧ (l.under .lenient).outcomes steps = (l.under .strict).outcomes steps
      ∧ ((l.under .strict).takeAll steps).failure? step
        = ((l.under .lenient).takeAll steps).rejection? step
      ∧ (∀ v, ((l.under .strict).takeAll steps).failure? step = some v →
        step = .runTask ∧ ((l.under .strict).takeAll steps).Unharmed v)
      ∧ ∀ (w : Widgets) (history : List (Bool × Command)) (finishing : Bool) (c : Command),
        w.writeAll .strict history = w.writeAll .lenient history
          ∧ ∃ d, ((w.writeAll .lenient history).write .lenient finishing c).1 = .ok d
            ∧ ((w.writeAll .strict history).write .strict finishing c).1 = d.strictly
            ∧ (d.malformed? ≠ none →
              ((w.writeAll .strict history).write .strict finishing c).2
                = w.writeAll .strict history) := by
  have hp : ((l.under .strict).takeAll steps).state.policy = .strict :=
    (l.under .strict).policy_takeAll steps
  refine ⟨l.excuse_takeAll steps, l.outcomes_under steps, ?_, fun v => unharmed_of_failure,
    fun w history finishing c => ⟨w.writeAll_strict history, ?_⟩⟩
  · rw [l.excuse_takeAll steps]
    exact (excuse_take hp _ step).2.symm
  · rw [w.writeAll_strict history]
    obtain ⟨d, hlenient, hstrict, -, hsame⟩ :=
      (w.writeAll .lenient history).write_strict finishing c
    exact ⟨d, hlenient, hstrict, hsame⟩

/-- A run with two malformed arguments, the second of which is still to be found out. -/
def garbled : List HostStep :=
  [.handle .create, .handle (.loginClicked {}), .enter 0,
    .command 0 (.of .startImageProgress "much"), .runTask, .command 0 (.of .setTitle "title"),
    .runTask, .command 0 (.of .updateImageProgress "more")]

/-- The second one fails in the strict host, is rejected in the lenient one, and writes nothing. -/
theorem alike_garbled :
    (((of {}).under .strict).takeAll garbled).failure? .runTask = some (.badArgument 101 "more")
      ∧ (((of {}).under .strict).takeAll garbled).Unharmed (.badArgument 101 "more")
      ∧ (((of {}).under .lenient).takeAll garbled).rejection? .runTask
        = some (.badArgument 101 "more")
      ∧ ((of {}).under .lenient).takeAll garbled
        = (((of {}).under .strict).takeAll garbled).excuse 1
      ∧ (({ image := some {} } : Widgets).write .strict false
        (.of .updateImageProgress "more")).2 = { image := some {} } := by
  obtain ⟨hrun, -, hreject, hharm, hwrite⟩ := alike_takeAll (of {}) garbled .runTask
  have hfail : (((of {}).under .strict).takeAll garbled).failure? .runTask
      = some (.badArgument 101 "more") := by decide +kernel
  have hone : (((of {}).under .strict).failures garbled).length = 1 := by decide +kernel
  obtain ⟨-, d, hlenient, -, hsame⟩ :=
    hwrite { image := some {} } [] false (.of .updateImageProgress "more")
  have hd : d.malformed? ≠ none := by
    obtain rfl : d = .rejected (.badArgument 101 "more") := (Except.ok.inj hlenient).symm
    decide
  exact ⟨hfail, (hharm _ hfail).2, hreject ▸ hfail, hone ▸ hrun, hsame hd⟩

end HostLoop

end EngineShell
