import EngineShell.Proofs.Terminations
import EngineShell.Proofs.Windows

/-!
# What turns do to the display and to the engine

The presentation thread takes windows down and puts none up, and it asks the engine for nothing
(`HostLoop.sheds_turn`). Apart from completions it makes no session live, and tells the engine
nothing unless one is (`HostLoop.lowers_turn`).
-/

namespace EngineShell

namespace Session

theorem engine_teardown (s : Session) (p : Platform) :
    (s.teardown p).2.2.engine = p.engine := by
  by_cases h : s.stage = .tornDown
  · simp [teardown, isTornDown, h]
  · rw [teardown_eq p h]
    rfl

theorem sheds_teardown (s : Session) (p : Platform) :
    p.windows.Sheds (s.teardown p).2.2.windows := by
  by_cases h : s.stage = .tornDown
  · simp only [teardown, isTornDown, h]
    exact .refl _
  · rw [teardown_eq p h]
    rcases s.overlay with _ | ⟨_ | id, layout⟩
    · exact .refl _
    · exact .refl _
    · exact .remove _ _

theorem engine_conclude (s : Session) (p : Platform) (a : Answer) :
    (s.conclude p a).platform.engine = p.engine := by
  unfold conclude
  split
  · exact s.engine_teardown p
  · unfold goLive
    dsimp only
    split
    · rfl
    · exact engine_teardown _ _

theorem opens_layoutPass (s : Session) (p : Platform) :
    (s.layoutPass p).2.engine.opens = p.engine.opens := by
  unfold layoutPass
  split <;> rfl

theorem opens_onChrome (s : Session) (p : Platform) (flags : ChromeFlags) :
    (s.onChrome p flags).2.engine.opens = p.engine.opens := by
  unfold onChrome
  split_ifs
  · split
    · exact s.opens_layoutPass _
    · rfl
  · rfl

end Session

/-- A change of a host that puts up no window, asks the engine for nothing, makes no other session
live, and tells the engine nothing without a live session. -/
structure Host.Lowers (h h' : Host) : Prop where
  windows : h.platform.windows.Sheds h'.platform.windows
  opens : h'.platform.engine.opens = h.platform.engine.opens
  live : ∀ s, h'.slot = .live s → h.slot = .live s
  engine : (∀ s, h.slot ≠ .live s) → h'.platform.engine = h.platform.engine

namespace Host.Lowers

variable {h h' h'' : Host}

theorem refl (h : Host) : h.Lowers h :=
  ⟨.refl _, rfl, fun _ => id, fun _ => rfl⟩

theorem trans (l : h.Lowers h') (l' : h'.Lowers h'') : h.Lowers h'' where
  windows := l.windows.trans l'.windows
  opens := l'.opens.trans l.opens
  live := fun s hs => l.live s (l'.live s hs)
  engine := fun hn => (l'.engine fun s hs => hn s (l.live s hs)).trans (l.engine hn)

theorem congr (hw : h'.platform.windows = h.platform.windows)
    (he : h'.platform.engine = h.platform.engine)
    (hs : h'.slot = h.slot ∨ ∀ s, h'.slot ≠ .live s) : h.Lowers h' := by
  refine ⟨hw ▸ .refl _, by rw [he], fun s hlive => ?_, fun _ => he⟩
  rcases hs with hs | hs
  · exact hs ▸ hlive
  · exact (hs s hlive).elim

theorem teardown (h : Host) (s : Session) :
    h.Lowers { h with platform := (s.teardown h.platform).2.2 } where
  windows := s.sheds_teardown _
  opens := by rw [s.engine_teardown]
  live := fun _ => id
  engine := fun _ => s.engine_teardown _

theorem report {s : Session} {p : Platform} (hs : h.slot = .live s)
    (hw : p.windows = h.platform.windows) (ho : p.engine.opens = h.platform.engine.opens) :
    h.Lowers { h with platform := p } :=
  ⟨hw ▸ .refl _, ho, fun _ => id, fun hn => (hn s hs).elim⟩

end Host.Lowers

namespace Turn

open Host

theorem lowers_finish (t : Turn) (s : Session) (o : Outcome) : t.host.Lowers (t.finish s o).host :=
  .teardown t.host s

theorem lowers_terminate (t : Turn) (o : Outcome) : t.host.Lowers (t.terminate o).host := by
  unfold terminate
  split
  · exact .refl _
  · exact .congr rfl rfl (.inr (by simp))
  · rename_i s _
    set t' := t.modify fun h => { h with slot := .idle } with ht'
    have hidle : t.host.Lowers t'.host := .congr rfl rfl (.inr (by simp [ht']))
    exact (hidle.trans (t'.lowers_finish s o)).trans (.congr rfl rfl (.inl rfl))

theorem lowers_handle (h : Host) (e : HostEvent) :
    h.Lowers (Turn.handle { host := h } e).host := by
  have displayModeLost : h.Lowers h.onDisplayModeLost := by
    unfold onDisplayModeLost
    split
    · unfold Session.reassert
      split_ifs <;> exact .congr rfl rfl (.inl rfl)
    · exact .refl h
  cases e with
  | create =>
    simp only [handle, host_modify, onCreate]
    split_ifs <;> exact .congr rfl rfl (.inl rfl)
  | resume => exact displayModeLost
  | windowFocusChanged focused =>
    cases focused
    · exact .refl h
    · exact displayModeLost
  | layoutSettled =>
    simp only [handle, host_modify, onLayoutSettled]
    split
    · rename_i s hs
      exact .report hs (s.layoutPass_sinks h.platform).2 (s.opens_layoutPass h.platform)
    · exact .refl h
  | chromeVisibilityChanged flags =>
    simp only [handle, host_modify, onChrome]
    split
    · rename_i s hs
      exact .report hs (s.onChrome_sinks h.platform flags).2 (s.opens_onChrome h.platform flags)
    · exact .refl h
  | backPressed =>
    simp only [handle, onBack]
    split
    · exact .congr rfl rfl (.inl rfl)
    · exact lowers_terminate { host := h } .success
  | destroy =>
    have hleft : h.Lowers { h with destroyed := true, exitRequested := true } :=
      .congr rfl rfl (.inl rfl)
    exact hleft.trans (lowers_terminate { host := _ } .success)
  | loginClicked c =>
    simp only [handle, host_modify, onLoginClicked]
    split_ifs
    · exact .refl h
    · split
      · rename_i login _
        simp only [launch, dropSlot]
        split
        · rename_i s _
          exact ⟨s.sheds_teardown _, by rw [s.engine_teardown]; rfl, by simp,
            fun _ => s.engine_teardown _⟩
        · exact .congr rfl rfl (.inr (by simp))
      · exact .refl h
  | _ => exact .congr rfl rfl (.inl rfl)

theorem lowers_onCommand (h : Host) (c : Command) :
    h.Lowers ((onCommand { host := h } c).toOption.getD { host := h }).host := by
  have hnote : ∀ overlay counter, h.Lowers (note { host := h } overlay counter).host :=
    fun overlay counter => .congr rfl rfl (.inl rfl)
  rcases onCommand_spec { host := h } c with ⟨-, heq⟩ | ⟨-, -, heq⟩ | ⟨overlay, counter, -, heq⟩ <;>
    rw [heq]
  · exact .congr rfl rfl (.inl rfl)
  · exact .refl h
  · rcases c.termination? with _ | o
    · exact hnote overlay counter
    · exact (hnote overlay counter).trans (lowers_terminate _ o)

theorem lowers_accept (h : Host) (s : Session) (c : Credentials) :
    h.Lowers (accept { host := h } s c).host := by
  unfold accept persist
  split_ifs
  · simp only [host_modify]
    split <;> exact .congr rfl rfl (.inr (by simp))
  · exact .congr rfl rfl (.inr (by simp))

theorem slot_accept (t : Turn) (s : Session) (c : Credentials) :
    (t.accept s c).host.slot = .idle := by
  unfold accept persist
  split_ifs
  · simp only [host_modify]
    split <;> rfl
  · rfl

theorem platform_accept (t : Turn) (s : Session) (c : Credentials) :
    (t.accept s c).host.platform = t.host.platform := by
  unfold accept persist
  split_ifs
  · simp only [host_modify]
    split <;> rfl
  · rfl

/-- A session goes live in its own completion, and in no other way. -/
theorem lowers_onOpened (h : Host) (s : Session) (failure : Option Outcome) (c : Credentials) :
    h.Lowers (onOpened { host := h } s failure c).host
      ∨ failure = none ∧ h.slot = .opening none
        ∧ onOpened { host := h } s failure c = (accept { host := h } s c).enterLive none s := by
  by_cases hp : h.slot.phase = .opening
  · obtain ⟨held, hs⟩ := Slot.eq_opening hp
    have hidle := lowers_accept h s c
    rw [onOpened_of_opening (t := { host := h }) hs]
    rcases failure with _ | f
    · rcases held with _ | o
      · exact .inr ⟨rfl, hs, rfl⟩
      · exact .inl (hidle.trans (lowers_finish _ s o))
    · exact .inl (hidle.trans (.teardown _ s))
  · rw [onOpened_of_not_opening (t := { host := h }) hp]
    exact .inl (.teardown h s)

end Turn

namespace HostLoop

variable {l l' : HostLoop} {t : Turn} {step : HostStep}

/-- A turn lowers the host, or brings the session live that it completes. -/
theorem lowers_turn (h : l.turn? step = some (l', t)) : l.state.Lowers t.host
    ∨ ∃ s c rest, step = .runTask ∧ l.queue.tasks = .opened s none c :: rest
      ∧ l.state.slot = .opening none
      ∧ t = (Turn.accept { host := l.state } s c).enterLive none s := by
  cases turnOf h with
  | event e =>
    obtain ⟨seen, hseen⟩ := l.state.handle_eq e
    rw [hseen]
    exact .inl ((Turn.lowers_handle l.state e).trans (.congr rfl rfl (.inl rfl)))
  | command k c => exact .inl (Turn.lowers_onCommand l.state c)
  | outcome k o => exact .inl (.congr rfl rfl (.inl rfl))
  | opened s failure c rest hq =>
    rcases Turn.lowers_onOpened l.state s failure c with hl | ⟨rfl, hs, heq⟩
    · exact .inl hl
    · exact .inr ⟨s, c, rest, rfl, hq, hs, heq⟩

/-- No turn puts up a window or asks the engine to open. -/
theorem sheds_turn (h : l.turn? step = some (l', t)) :
    l.state.platform.windows.Sheds t.host.platform.windows
      ∧ t.host.platform.engine.opens = l.state.platform.engine.opens := by
  rcases lowers_turn h with hl | ⟨s, c, rest, -, -, -, rfl⟩
  · exact ⟨hl.windows, hl.opens⟩
  · have hidle := Turn.lowers_accept l.state s c
    refine ⟨?_, (s.opens_layoutPass _).trans hidle.opens⟩
    have hw : (s.layoutPass (Turn.accept { host := l.state } s c).host.platform).2.windows
        = (Turn.accept { host := l.state } s c).host.platform.windows :=
      (s.layoutPass_sinks _).2
    exact (hw ▸ hidle.windows : l.state.platform.windows.Sheds
      (s.layoutPass (Turn.accept { host := l.state } s c).host.platform).2.windows)

/-- Off the presentation thread only the engine's answer can put up a window. -/
theorem windows_offThread (h : l.turn? step = none) (hs : ∀ i a, step ≠ .answer i a) :
    (l.take step).state.platform.windows = l.state.platform.windows
      ∨ (l.take step).state.platform.windows = l.state.platform.windows.failNext := by
  cases step with
  | handle e => simp [turn?] at h
  | runTask =>
    have hq : l.queue.tasks = [] := by simpa [turn?] using h
    rw [take, runTask_nil hq]
    exact .inl rfl
  | command k c => exact .inl (l.state.platform.sinks_apply k c).2
  | enter i =>
    left
    rcases l.enter_cases i with heq | ⟨w, -, -, heq⟩ <;> rw [take, heq]
    rfl
  | answer i a => exact (hs i a rfl).elim
  | deliver i =>
    left
    rcases l.deliver_cases i with heq | ⟨w, failure, o, -, -, heq⟩ <;> rw [take, heq]
    rfl
  | complete i =>
    left
    rcases l.complete_cases i with heq | ⟨w, failure, -, -, heq⟩ <;> rw [take, heq]
    rfl
  | refuseWindow => exact .inr rfl
  | _ => exact .inl rfl

theorem reports_offThread (h : l.turn? step = none) :
    (l.take step).state.platform.engine.reports = l.state.platform.engine.reports := by
  cases step with
  | handle e => simp [turn?] at h
  | runTask =>
    have hq : l.queue.tasks = [] := by simpa [turn?] using h
    rw [take, runTask_nil hq]
  | command k c =>
    simp only [take, command, modifyPlatform, modify, Platform.apply]
    split <;> rfl
  | enter i =>
    rcases l.enter_cases i with heq | ⟨w, -, -, heq⟩ <;> rw [take, heq]
    rfl
  | answer i a =>
    rcases l.answer_cases i a with heq | ⟨w, o, -, -, rfl, heq⟩ <;> rw [take, heq]
    exact congrArg EngineLink.reports (w.session.engine_conclude l.state.platform a)
  | deliver i =>
    rcases l.deliver_cases i with heq | ⟨w, failure, o, -, -, heq⟩ <;> rw [take, heq]
    rfl
  | complete i =>
    rcases l.complete_cases i with heq | ⟨w, failure, -, -, heq⟩ <;> rw [take, heq]
    rfl
  | _ => rfl

/-- The engine is told nothing while no session is live. -/
theorem reports_take (hs : ∀ s, l.state.slot ≠ .live s)
    (hs' : ∀ s, (l.take step).state.slot ≠ .live s) :
    (l.take step).state.platform.engine.reports = l.state.platform.engine.reports := by
  rcases hturn : l.turn? step with _ | ⟨l', t⟩
  · exact reports_offThread hturn
  · rw [take_turn hturn] at hs' ⊢
    rcases lowers_turn hturn with hl | ⟨s, c, rest, -, -, -, rfl⟩
    · exact congrArg EngineLink.reports (hl.engine hs)
    · exact (hs' s rfl).elim

end HostLoop

end EngineShell
