import EngineShell.Proofs.Mirror
import EngineShell.Proofs.Overlays

/-!
# Hosts that are gone

Once a host has handled its destruction it is gone for good (`Host.Departed`): it takes no
submission, no session of it goes live, and an attempt that is still opening has a termination held
for it. Every turn keeps this (`departed_turn`), so all that a later step can do is to finish what
was under way. `gone_takeAll` says what that leaves: nothing.
-/

namespace EngineShell

/-- The host has been destroyed, and the attempt that is opening, if there is one, is to end. -/
structure Host.Departed (h : Host) : Prop where
  destroyed : h.destroyed = true
  exit : h.exitRequested = true
  slot : h.slot = .idle ∨ ∃ o, h.slot = .opening (some o)

namespace Host.Departed

variable {h h' : Host}

theorem congr (hd : h.Departed) (hs : h'.slot = h.slot) (hf : h'.destroyed = h.destroyed)
    (he : h'.exitRequested = h.exitRequested) : h'.Departed :=
  ⟨hf.trans hd.destroyed, he.trans hd.exit, hs ▸ hd.slot⟩

theorem not_live (hd : h.Departed) (s : Session) : h.slot ≠ .live s := by
  rcases hd.slot with hs | ⟨o, hs⟩ <;> simp [hs]

theorem isLive_eq (hd : h.Departed) : h.isLive = false := by
  rcases hd.slot with hs | ⟨o, hs⟩ <;> simp [isLive, hs, Slot.phase]

theorem not_takes (hd : h.Departed) : h.takes = false := by
  simp [takes, hd.destroyed]

/-- Whatever the slot held, ending it leaves nothing that could go live. -/
theorem of_terminate {t : Turn} (hd : t.host.destroyed = true) (he : t.host.exitRequested = true)
    (o : Outcome) : (t.terminate o).host.Departed := by
  unfold Turn.terminate
  split
  · rename_i hs
    exact ⟨hd, he, .inl hs⟩
  · rename_i held _
    refine ⟨hd, he, .inr ?_⟩
    -- the first termination that was held stays
    cases held with
    | none => exact ⟨o, rfl⟩
    | some o' => exact ⟨o', rfl⟩
  · exact ⟨hd, he, .inl rfl⟩

theorem terminate {t : Turn} (hd : t.host.Departed) (o : Outcome) :
    (t.terminate o).host.Departed :=
  of_terminate hd.destroyed hd.exit o

theorem turn_handle (hd : h.Departed) (e : HostEvent) :
    (Turn.handle { host := h } e).host.Departed := by
  have displayModeLost : h.onDisplayModeLost.Departed := by
    unfold onDisplayModeLost
    split <;> exact hd.congr rfl rfl rfl
  cases e with
  | create =>
    simp only [Turn.handle, Turn.host_modify, onCreate]
    split_ifs <;> exact hd.congr rfl rfl rfl
  | resume => exact displayModeLost
  | windowFocusChanged focused =>
    cases focused
    · exact hd
    · exact displayModeLost
  | layoutSettled =>
    simp only [Turn.handle, Turn.host_modify, onLayoutSettled]
    split <;> exact hd.congr rfl rfl rfl
  | chromeVisibilityChanged flags =>
    simp only [Turn.handle, Turn.host_modify, onChrome]
    split <;> exact hd.congr rfl rfl rfl
  | backPressed =>
    simp only [Turn.handle, Turn.onBack]
    split
    · exact ⟨hd.destroyed, rfl, hd.slot⟩
    · exact terminate (t := { host := h }) hd .success
  | destroy => exact of_terminate (t := Turn.modify { host := h } _) rfl rfl .success
  | loginClicked c =>
    simp only [Turn.handle, Turn.host_modify, onLoginClicked_of_not_takes hd.not_takes]
    exact hd
  | quitClicked => exact ⟨hd.destroyed, rfl, hd.slot⟩
  | _ => exact hd.congr rfl rfl rfl

theorem handle (hd : h.Departed) (e : HostEvent) : (h.handle e).2.host.Departed := by
  obtain ⟨seen, hseen⟩ := h.handle_eq e
  rw [hseen]
  exact (hd.turn_handle e).congr rfl rfl rfl

/-- A host that handles its destruction is gone. -/
theorem of_destroy (h : Host) : (h.handle .destroy).2.host.Departed := by
  obtain ⟨seen, hseen⟩ := h.handle_eq .destroy
  rw [hseen]
  have hd : (Turn.handle { host := h } .destroy).host.Departed :=
    of_terminate (t := Turn.modify { host := h } _) rfl rfl .success
  exact hd.congr rfl rfl rfl

theorem onCommand (hd : h.Departed) (c : Command) :
    ((Turn.onCommand { host := h } c).toOption.getD { host := h }).host.Departed := by
  rcases Turn.onCommand_spec { host := h } c with
    ⟨-, heq⟩ | ⟨-, -, heq⟩ | ⟨overlay, counter, -, heq⟩ <;> rw [heq]
  · exact hd.congr rfl rfl rfl
  · exact hd
  · have hnote : (Turn.note { host := h } overlay counter).host.Departed := hd.congr rfl rfl rfl
    rcases c.termination? with _ | o
    · exact hnote
    · exact hnote.terminate o

theorem accept (hd : h.Departed) (s : Session) (c : Credentials) :
    (Turn.accept { host := h } s c).host.Departed := by
  have hidle : ({ h with slot := .idle } : Host).Departed := ⟨hd.destroyed, hd.exit, .inl rfl⟩
  unfold Turn.accept
  split_ifs
  · simp only [Turn.host_modify, persist]
    split
    · exact hidle.congr rfl rfl rfl
    · exact hidle
  · exact hidle

/-- A completion finds no slot open, or a termination that was held for it. -/
theorem onOpened (hd : h.Departed) (s : Session) (failure : Option Outcome) (c : Credentials) :
    (Turn.onOpened { host := h } s failure c).host.Departed := by
  rcases hd.slot with hs | ⟨o, hs⟩
  · rw [Turn.onOpened_of_not_opening (t := { host := h }) (by simp [hs, Slot.phase])]
    exact hd.congr rfl rfl rfl
  · rw [Turn.onOpened_of_opening (t := { host := h }) hs]
    have ha := hd.accept s c
    cases failure with
    | none => exact ha.congr rfl rfl rfl
    | some f => exact ha.congr rfl rfl rfl

end Host.Departed

namespace HostLoop

variable {lost : Nat} {l l' : HostLoop} {t : Turn} {step : HostStep}

theorem departed_turn (hd : l.state.Departed) (h : l.turn? step = some (l', t)) :
    t.host.Departed := by
  cases turnOf h with
  | event e => exact hd.handle e
  | command k c => exact hd.onCommand c
  | outcome k o => exact hd.congr rfl rfl rfl
  | opened s failure c => exact hd.onOpened s failure c

theorem departed_take (hd : l.state.Departed) (step : HostStep) : (l.take step).state.Departed := by
  rcases hturn : l.turn? step with _ | ⟨l', t⟩
  · obtain ⟨platform, workers, heq⟩ := l.state_take hturn
    rw [heq]
    exact hd.congr rfl rfl rfl
  · rw [take_turn hturn]
    exact departed_turn hd hturn

theorem departed_of_destroy (h : l.event? step = some .destroy) :
    (l.take step).state.Departed := by
  obtain ⟨l', hturn⟩ := turn?_of_event h
  rw [take_turn hturn]
  exact .of_destroy l.state

/-- Only the presentation thread starts attempts. -/
theorem attempts_offThread (h : l.turn? step = none) : (l.take step).attempts = l.attempts := by
  cases step with
  | handle e => simp [turn?] at h
  | runTask =>
    have hq : l.queue.tasks = [] := by simpa [turn?] using h
    rw [take, runTask_nil hq]
  | command k c => exact congrArg List.length (l.state.platform.sinks_apply k c).1
  | enter i =>
    rcases l.enter_cases i with heq | ⟨w, -, -, heq⟩ <;> rw [take, heq]
    rfl
  | answer i a =>
    rcases l.answer_cases i a with heq | ⟨w, o, -, -, rfl, heq⟩ <;> rw [take, heq]
    exact (w.session.sink_conclude l.state.platform a).2
  | deliver i =>
    rcases l.deliver_cases i with heq | ⟨w, failure, o, -, -, heq⟩ <;> rw [take, heq]
    rfl
  | complete i =>
    rcases l.complete_cases i with heq | ⟨w, failure, -, -, heq⟩ <;> rw [take, heq]
    rfl
  | _ => rfl

/-- A host that takes no submission starts no attempt. -/
theorem Balanced.attempts_take (hb : l.Balanced lost) (hn : l.state.takes = false)
    (step : HostStep) : (l.take step).attempts = l.attempts := by
  rcases hturn : l.turn? step with _ | ⟨l', t⟩
  · exact attempts_offThread hturn
  · rw [take_turn hturn]
    rcases hb.turn_cases hturn with ⟨c, -, ht, -⟩ | ⟨-, ht⟩
    · simp [hn] at ht
    · exact ht.attempts

/-- What is left of a host that is gone once nothing waits and no worker works: every window was
taken down, once, and every sink is closed. -/
structure Cleared (l : HostLoop) : Prop where
  slot : l.state.slot = .idle
  attached : l.state.platform.windows.attached = []
  removed : ∀ id ∈ l.state.platform.windows.addedIds,
    l.state.platform.windows.removedIds.count id = 1
  closed : ∀ sink ∈ l.state.platform.sinks, sink.closed = true

theorem AtRest.cleared (hr : l.AtRest) (hb : l.Balanced lost)
    (hw : l.state.platform.windows.Logged) : l.Cleared where
  slot := (hb.atRest hr).1
  attached := hb.attached_eq_nil hr
  removed := by
    intro id hid
    have hattached := hw.attached
    rw [Windows.ids, hb.attached_eq_nil hr, List.map_nil, eq_comm, List.filter_eq_nil_iff]
      at hattached
    exact List.count_eq_one_of_mem hw.removed (by simpa using hattached id hid)
  closed := Platform.closed_of_not_isOpen fun k hk => by
    obtain ⟨s, hs, -⟩ := hb.accounts.sinks k hk
    simp [hr.errands_eq] at hs

section Run

variable {s : HostSetup} {l₀ : HostLoop} {before after : List HostStep}

theorem departed_takeAll (hd : Meets (fun l step => l.event? step = some .destroy) l₀ before) :
    (l₀.takeAll before).state.Departed := by
  induction before using List.reverseRecOn with
  | nil => exact (not_meets_nil hd).elim
  | append_singleton before step ih =>
    rw [takeAll_concat]
    rcases meets_concat.1 hd with hd | hd
    · exact departed_take (ih hd) step
    · exact departed_of_destroy hd

theorem attempts_takeAll (h₀ : s.start = .ok l₀)
    (hd : Meets (fun l step => l.event? step = some .destroy) l₀ before) :
    ((l₀.takeAll before).takeAll after).attempts = (l₀.takeAll before).attempts := by
  induction after using List.reverseRecOn with
  | nil => rfl
  | append_singleton after step ih =>
    have hd' := departed_takeAll (hd.mono (List.prefix_append before after))
    obtain ⟨lost, hb, -⟩ := balanced_takeAll (balanced_start h₀) (before ++ after)
    rw [takeAll_append] at hb hd'
    rw [takeAll_concat, hb.attempts_take hd'.not_takes step, ih]

/-- What holds of a host at any time after its destruction. -/
structure Gone (l l' : HostLoop) : Prop where
  exit : l'.state.exitRequested = true
  /-- No attempt was started since, and none will be. -/
  attempts : l'.attempts = l.attempts
  refuses : ∀ c, l'.state.onLoginClicked c = l'.state
  slot : ∀ s, l'.state.slot ≠ .live s
  cleared : l'.queue.tasks = [] → l'.state.workers = [] → l'.Cleared

/-- Nothing outlives the destruction of a host: from then on no attempt starts and no session goes
live, and whenever nothing waits and no worker works, all windows and sinks are gone. -/
theorem gone_takeAll (h₀ : s.start = .ok l₀)
    (hd : Meets (fun l step => l.event? step = some .destroy) l₀ before)
    (after : List HostStep) :
    Gone (l₀.takeAll before) ((l₀.takeAll before).takeAll after) := by
  have hgone := departed_takeAll (hd.mono (List.prefix_append before after))
  obtain ⟨lost, hb, -⟩ := balanced_takeAll (balanced_start h₀) (before ++ after)
  have hw := (owned_takeAll h₀ (before ++ after)).logged
  rw [takeAll_append] at hgone hb hw
  refine ⟨hgone.exit, attempts_takeAll h₀ hd, fun c => ?_, hgone.not_live, fun hq hnone => ?_⟩
  · exact Host.onLoginClicked_of_not_takes hgone.not_takes c
  · exact AtRest.cleared ⟨hq, hnone, hgone.isLive_eq⟩ hb hw

end Run

/-- A run in which the host is destroyed while an attempt is opening whose window is up already. -/
def interrupted : List HostStep :=
  [.handle .create, .handle (.loginClicked {}), .enter 0, .answer 0 .accepted, .handle .destroy]

/-- What may follow: more events of all kinds, and the end of the attempt. -/
def aftermath : List HostStep :=
  [.handle .create, .handle (.loginClicked {}), .post .destroy, .complete 0, .runTask, .runTask,
    .runTask]

/-- After such a run a window is still up, and at its end it is gone. -/
theorem gone_interrupted : ((of {}).takeAll interrupted).state.platform.windows.ids = [1]
    ∧ Gone ((of {}).takeAll interrupted) (((of {}).takeAll interrupted).takeAll aftermath)
      ∧ (((of {}).takeAll interrupted).takeAll aftermath).Cleared := by
  have h₀ : HostSetup.start {} = .ok (of {}) := rfl
  have hd : Meets (fun l step => l.event? step = some .destroy) (of {}) interrupted := by
    decide +kernel
  have hgone := gone_takeAll h₀ hd aftermath
  exact ⟨by decide +kernel, hgone, hgone.cleared (by decide +kernel) (by decide +kernel)⟩

end HostLoop

end EngineShell
