import EngineShell.Proofs.Submissions

/-!
# The session under the fatal screen

The fatal screen closes the session's part of the presentation when it comes up, but it ends no
session. So a host at rest under it shows no session exactly if none is live and none has gone
live while the screen was up (`closed_iff`); a burst of taps on the icon of a live session leaves
that session live (`live_tapped`). A fatal screen that comes up while no submission waits is never
in that trouble (`closed_of_calm`).
-/

namespace EngineShell

namespace LoginFlow

/-- What an outcome does to the presentation: the fatal screen stays, or comes up and closes the
session's part. -/
theorem shown_onOutcome (l : LoginFlow) (o : Outcome) :
    (l.onOutcome o).board.shown.overlayAttached = l.board.shown.overlayAttached
      ∧ ((l.onOutcome o).isFatal = l.isFatal
          ∧ (l.isFatal = true → (l.onOutcome o).board.shown.phase = l.board.shown.phase)
        ∨ l.isFatal = false ∧ (l.onOutcome o).board.shown.phase = .closed) := by
  cases hf : l.isFatal
  · rw [onOutcome_of_not_fatal hf]
    cases o with
    | fatal m =>
      have hf' : ({ l with pending := none }.count .fatal).isFatal = false := hf
      obtain ⟨-, ha, ⟨hs, -⟩ | ⟨-, -, hp⟩⟩ :=
        stays_showFatal ({ l with pending := none }.count .fatal) m
      · simp [isFatal_showFatal, hf'] at hs
      · exact ⟨ha, .inr ⟨rfl, hp⟩⟩
    | _ => exact ⟨rfl, .inr ⟨rfl, rfl⟩⟩
  · rw [onOutcome_of_fatal hf]
    exact ⟨rfl, .inl ⟨hf, fun _ => rfl⟩⟩

end LoginFlow

/-- What a host shows of its session: the overlay is up while it is live, and under the fatal
screen its part is closed, unless a session has gone live since. -/
structure Host.Shows (late : Bool) (h : Host) : Prop where
  attached : h.shown.overlayAttached = h.isLive
  closed : h.login.isFatal = true → (h.shown.phase = .closed ↔ late = false)
  early : h.login.isFatal = false → late = false

namespace Host.Shows

variable {late : Bool} {h h' : Host}

theorem move (hs : h.Shows late) (ha : h'.shown.overlayAttached = h'.isLive)
    (hp : h'.login.isFatal = h.login.isFatal
        ∧ (h.login.isFatal = true → h'.shown.phase = h.shown.phase)
      ∨ h.login.isFatal = false ∧ h'.shown.phase = .closed) : h'.Shows late := by
  refine ⟨ha, fun hf => ?_, fun hf => ?_⟩
  · rcases hp with ⟨hf', hp⟩ | ⟨hf', hp⟩
    · rw [hf'] at hf
      rw [hp hf]
      exact hs.closed hf
    · simp [hp, hs.early hf']
  · rcases hp with ⟨hf', -⟩ | ⟨hf', -⟩
    · exact hs.early (hf' ▸ hf)
    · exact hs.early hf'

theorem isLive_eq (hp : h'.slot.phase = h.slot.phase) : h'.isLive = h.isLive := by
  rw [isLive, hp, isLive]

theorem quiet (hs : h.Shows late) (q : h.Quiet h') : h'.Shows late := by
  refine hs.move ?_ ?_
  · rw [show h'.shown.overlayAttached = _ from q.login.attached, isLive_eq q.phase]
    exact hs.attached
  · rcases q.login.screen with ⟨hf, hp⟩ | ⟨hf, -, hp⟩
    · exact .inl ⟨hf, fun _ => hp⟩
    · exact .inr ⟨hf, hp⟩

theorem slot (hs : h.Shows late) (hl : h'.login = h.login) (hp : h'.isLive = h.isLive) :
    h'.Shows late := by
  refine hs.move ?_ (.inl ⟨by rw [hl], fun _ => by rw [shown, hl, shown]⟩)
  rw [hp, ← hs.attached, shown, hl, shown]

theorem terminate {t : Turn} (hs : t.host.Shows late) (o : Outcome) :
    (t.terminate o).host.Shows late := by
  unfold Turn.terminate
  split
  · exact hs
  · rename_i held hslot
    exact hs.slot rfl (isLive_eq (by simp [hslot, Slot.phase]))
  · refine hs.move rfl (.inl ⟨?_, fun _ => rfl⟩)
    rfl

theorem handle (hs : h.Shows late) (hn : h.login.isPending = false → ∀ s, h.slot ≠ .live s)
    (e : HostEvent) : (h.handle e).2.host.Shows late := by
  have ht : (Turn.handle { host := h } e).host.Shows late := by
    rcases Turn.handle_cases { host := h } e with q | ⟨t, q, heq⟩ | ⟨c, -, heq⟩
    · exact hs.quiet q.host
    · exact heq ▸ (hs.quiet q.host).terminate .success
    · rw [heq, Turn.host_modify]
      cases ht : h.takes
      · rw [Host.onLoginClicked_of_not_takes ht]
        exact hs
      · have hfree := hn (Host.free_of_takes ht)
        have hl := Host.launches_onLoginClicked ht hfree c
        have hf := Host.not_fatal_of_takes ht
        have hlive : h.isLive = false := by
          cases hslot : h.slot with
          | live s => exact (hfree s hslot).elim
          | _ => simp [Host.isLive, hslot, Slot.phase]
        refine hs.move ?_ (.inl ⟨hl.isFatal.trans hf.symm, fun h => by simp [hf] at h⟩)
        rw [hl.attached, hs.attached, hlive]
        simp [Host.isLive, hl.slot, Slot.phase]
  obtain ⟨seen, hseen⟩ := h.handle_eq e
  rw [hseen]
  exact ht.slot rfl rfl

theorem onCommand (hs : h.Shows late) (c : Command) :
    ((Turn.onCommand { host := h } c).toOption.getD { host := h }).host.Shows late := by
  obtain ⟨t, q, heq | ⟨o, heq⟩⟩ := Turn.onCommand_cases { host := h } c
  · exact heq ▸ hs.quiet q.host
  · exact heq ▸ (hs.quiet q.host).terminate o

theorem onOutcome (hs : h.Shows late) (o : Outcome) :
    (Turn.onOutcome { host := h } o).host.Shows late := by
  obtain ⟨ha, hp⟩ := h.login.shown_onOutcome o
  exact hs.move (ha.trans hs.attached) hp

/-- A session that goes live shows under the fatal screen. -/
theorem enterLive {t : Turn} (hs : t.host.Shows late) (s : Session) :
    (t.enterLive none s).host.Shows (late || t.host.login.isFatal) where
  attached := rfl
  closed := by
    intro hf
    replace hf : t.host.login.isFatal = true := hf
    rw [hf, Bool.or_true]
    simp [Turn.enterLive, Host.present, Host.shown]
  early := by
    intro hf
    replace hf : t.host.login.isFatal = false := hf
    rw [hf, Bool.or_false]
    exact hs.early hf

theorem onOpened (hs : h.Shows late) (s : Session) (failure : Option Outcome) (c : Credentials) :
    (Turn.onOpened { host := h } s failure c).host.Shows
      (late || (failure.isNone && h.slot == .opening none && h.login.isFatal)) := by
  by_cases hp : h.slot.phase = .opening
  · obtain ⟨held, hslot⟩ := Slot.eq_opening hp
    have hidle : Host.Shows late { h with slot := .idle } := by
      refine hs.slot rfl ?_
      simp [isLive, hslot, Slot.phase]
    have ht := hidle.quiet (Turn.quiet_accept { host := h } s c).host
    rw [Turn.onOpened_of_opening (t := { host := h }) hslot, hslot]
    rcases failure with _ | f
    · rcases held with _ | o
      · rw [← Turn.login_accept { host := h } s c]
        exact ht.enterLive s
      · exact (Bool.or_false late).symm ▸ ht.slot rfl rfl
    · exact (Bool.or_false late).symm ▸ ht.slot rfl rfl
  · have hne : (h.slot == .opening none) = false := by
      refine beq_false_of_ne fun hslot => hp ?_
      rw [hslot]
      rfl
    rw [Turn.onOpened_of_not_opening (t := { host := h }) hp, hne, Bool.and_false, Bool.false_and,
      Bool.or_false]
    exact hs.slot rfl rfl

end Host.Shows

namespace HostLoop

variable {lost : Nat} {late : Bool} {l : HostLoop}

/-- Whether a step brings a session live under the fatal screen. -/
def surfaces (l : HostLoop) (step : HostStep) : Bool :=
  l.completes step && l.state.slot == .opening none && l.state.login.isFatal

theorem shows_runTask (hb : l.Balanced lost) (hs : l.state.Shows late) :
    l.runTask.state.Shows (late || l.surfaces .runTask) := by
  rcases h : l.queue.tasks with _ | ⟨t, rest⟩
  · rw [runTask_nil h, surfaces, completes, task?, h]
    exact (Bool.or_false late).symm ▸ hs
  have hsurfaces : t.isCompletion = false → (late || l.surfaces .runTask) = late := by
    intro ht
    rw [surfaces, completes_runTask h, ht, Bool.false_and, Bool.false_and, Bool.or_false]
  rw [runTask_cons h]
  cases t with
  | event e =>
    rw [hsurfaces rfl]
    exact hs.handle (fun hp => (hb.rest hp).1) e
  | command k c =>
    rw [hsurfaces rfl]
    exact hs.onCommand c
  | outcome k o =>
    rw [hsurfaces rfl]
    exact hs.onOutcome o
  | opened s failure c =>
    have := hs.onOpened s failure c
    rw [surfaces, completes_runTask h]
    cases failure <;> exact this

theorem shows_take (hb : l.Balanced lost) (hs : l.state.Shows late) (step : HostStep) :
    (l.take step).state.Shows (late || l.surfaces step) := by
  have offThread : l.turn? step = none → step ≠ .runTask →
      (l.take step).state.Shows (late || l.surfaces step) := by
    intro hturn hstep
    obtain ⟨platform, workers, heq⟩ := l.state_take hturn
    have : l.surfaces step = false := by
      cases step <;> first | rfl | exact (hstep rfl).elim
    rw [heq, this, Bool.or_false]
    exact hs.slot rfl rfl
  cases step with
  | handle e => exact (Bool.or_false late).symm ▸ hs.handle (fun hp => (hb.rest hp).1) e
  | runTask => exact shows_runTask hb hs
  | _ => exact offThread rfl (by simp)

/-- What a run shows of its sessions. -/
theorem shows_takeAll {s : HostSetup} {l₀ : HostLoop} (h₀ : s.start = .ok l₀)
    (steps : List HostStep) : ∃ late, (l₀.takeAll steps).state.Shows late
      ∧ (late = false ↔ ¬ Meets (fun l step => l.surfaces step = true) l₀ steps) := by
  induction steps using List.reverseRecOn with
  | nil =>
    obtain ⟨layout, rfl⟩ := start_eq h₀
    refine ⟨false, ⟨rfl, ?_, fun _ => rfl⟩, by simp⟩
    intro hf
    simp [LoginFlow.isFatal, Presentation.isFatal, Presentation.fatalMessage?] at hf
  | append_singleton steps step ih =>
    obtain ⟨late, hs, hlate⟩ := ih
    obtain ⟨lost, hb, -⟩ := balanced_takeAll (balanced_start h₀) steps
    refine ⟨_, takeAll_concat l₀ steps step ▸ shows_take hb hs step, ?_⟩
    rw [meets_concat, not_or, ← hlate, Bool.or_eq_false_iff, Bool.not_eq_true]

/-- The session's part of the presentation is over: no slot, no window, no overlay, and the phase
says so. -/
def Closed (l : HostLoop) : Prop :=
  l.state.slot = .idle ∧ l.state.platform.windows.attached = []
    ∧ l.state.shown.overlayAttached = false ∧ l.state.shown.phase = .closed

instance (l : HostLoop) : Decidable l.Closed :=
  inferInstanceAs (Decidable (_ ∧ _ ∧ _ ∧ _))

/-- Under the fatal screen, a host for which nothing waits and no worker works shows no session,
exactly if none is live and none has gone live under that screen. -/
theorem closed_iff {s : HostSetup} {l₀ : HostLoop} (h₀ : s.start = .ok l₀) (steps : List HostStep)
    (hf : (l₀.takeAll steps).state.login.isFatal = true)
    (hq : (l₀.takeAll steps).queue.tasks = []) (hw : (l₀.takeAll steps).state.workers = []) :
    (l₀.takeAll steps).Closed ↔ (l₀.takeAll steps).state.isLive = false
      ∧ ¬ Meets (fun l step => l.surfaces step = true) l₀ steps := by
  obtain ⟨lost, hb, -⟩ := balanced_takeAll (balanced_start h₀) steps
  obtain ⟨late, hs, hlate⟩ := shows_takeAll h₀ steps
  generalize l₀.takeAll steps = l at *
  rw [← hlate, ← hs.closed hf]
  constructor
  · rintro ⟨hslot, -, -, hp⟩
    exact ⟨by simp [Host.isLive, hslot, Slot.phase], hp⟩
  · rintro ⟨hl, hp⟩
    have hr : l.AtRest := ⟨hq, hw, hl⟩
    refine ⟨(hb.atRest hr).1, ?_, hs.attached.trans hl, hp⟩
    have hids := hb.accounts.windows
    rw [hr.errands_eq, Multiset.zero_bind, Multiset.coe_eq_zero] at hids
    exact List.map_eq_nil_iff.1 hids

/-- A run in which the icon of a live session is tapped eight times. -/
def tapped : List HostStep :=
  [.handle .create, .handle (.loginClicked {}), .enter 0, .answer 0 .accepted, .complete 0,
    .runTask] ++ List.replicate 8 (.handle (.iconTapped 0))

/-- Such a run ends under the fatal screen with its session live. -/
theorem live_tapped : ((of {}).takeAll tapped).state.login.isFatal = true
    ∧ ((of {}).takeAll tapped).queue.tasks = [] ∧ ((of {}).takeAll tapped).state.workers = []
      ∧ ((of {}).takeAll tapped).state.isLive = true ∧ ¬ ((of {}).takeAll tapped).Closed := by
  have h₀ : HostSetup.start {} = .ok (of {}) := rfl
  have hf : ((of {}).takeAll tapped).state.login.isFatal = true := by decide +kernel
  have hq : ((of {}).takeAll tapped).queue.tasks = [] := by decide +kernel
  have hw : ((of {}).takeAll tapped).state.workers = [] := by decide +kernel
  have hl : ((of {}).takeAll tapped).state.isLive = true := by decide +kernel
  refine ⟨hf, hq, hw, hl, fun hc => ?_⟩
  have := ((closed_iff h₀ _ hf hq hw).1 hc).1
  simp [hl] at this

section Calm

variable {s : HostSetup} {l₀ : HostLoop} {steps : List HostStep}

/-- Whether a step brings up the fatal screen while a submission waits. -/
def raises (l : HostLoop) (step : HostStep) : Bool :=
  !l.state.login.isFatal && (l.take step).state.login.isFatal
    && (l.take step).state.login.isPending

/-- Under the fatal screen no submission is taken. -/
theorem not_isPending_take (hb : l.Balanced lost) (hf : l.state.login.isFatal = true)
    (hp : l.state.login.isPending = false) (step : HostStep) :
    (l.take step).state.login.isPending = false := by
  have keep : (l.take step).state.login.pending = l.state.login.pending
      ∨ (l.take step).state.login.pending = none →
        (l.take step).state.login.isPending = false := by
    rintro (h | h) <;> rw [LoginFlow.isPending, h]
    · exact hp
    · rfl
  rcases hturn : l.turn? step with _ | ⟨l', t⟩
  · obtain ⟨platform, workers, heq⟩ := l.state_take hturn
    exact keep (.inl (by rw [heq]))
  · have hstate : (l.take step).state = t.host := by rw [take_turn hturn, land]
    rcases hb.turn_cases hturn with ⟨c, -, ht, -⟩ | ⟨-, ht⟩
    · have := Host.not_fatal_of_takes ht
      simp [hf] at this
    · exact keep (hstate ▸ ht.pending)

theorem calm_takeAll (h₀ : s.start = .ok l₀)
    (hr : ¬ Meets (fun l step => l.raises step = true) l₀ steps)
    (hf : (l₀.takeAll steps).state.login.isFatal = true) :
    (l₀.takeAll steps).state.login.isPending = false := by
  induction steps using List.reverseRecOn with
  | nil =>
    obtain ⟨layout, rfl⟩ := start_eq h₀
    rfl
  | append_singleton steps step ih =>
    obtain ⟨lost, hb, -⟩ := balanced_takeAll (balanced_start h₀) steps
    rw [meets_concat, not_or] at hr
    rw [takeAll_concat] at hf ⊢
    by_cases hf' : (l₀.takeAll steps).state.login.isFatal = true
    · exact not_isPending_take hb hf' (ih hr.1 hf') step
    · simpa [raises, hf', hf] using hr.2

/-- A completion that goes well belongs to the submission that waits. -/
theorem not_surfaces (hb : l.Balanced lost)
    (hc : l.state.login.isFatal = true → l.state.login.isPending = false) (step : HostStep) :
    l.surfaces step = false := by
  by_contra h
  simp only [surfaces, completes, Bool.not_eq_false, Bool.and_eq_true, Option.any_eq_true] at h
  obtain ⟨⟨⟨task, htask, hcomp⟩, -⟩, hf⟩ := h
  cases step with
  | runTask =>
    rcases task with _ | _ | _ | ⟨s, _ | f, c⟩ <;> simp [HostTask.isCompletion] at hcomp
    have hmem := mem_errands_of_task (List.mem_of_head? htask) (Multiset.mem_singleton_self _)
    have := (hb.accounts.eq_of_carries hmem rfl).1
    simp [hc hf] at this
  | _ => simp [task?] at htask

/-- A fatal screen that never comes up over a submission leaves nothing of a session: not the one
of a refused attempt, nor the one of a record. -/
theorem closed_of_calm (h₀ : s.start = .ok l₀)
    (hr : ¬ Meets (fun l step => l.raises step = true) l₀ steps)
    (hf : (l₀.takeAll steps).state.login.isFatal = true)
    (hq : (l₀.takeAll steps).queue.tasks = []) (hw : (l₀.takeAll steps).state.workers = []) :
    (l₀.takeAll steps).Closed := by
  refine (closed_iff h₀ steps hf hq hw).2 ⟨?_, ?_⟩
  · obtain ⟨lost, hb, -⟩ := balanced_takeAll (balanced_start h₀) steps
    have hslot := (hb.rest (calm_takeAll h₀ hr hf)).1
    rcases hs : (l₀.takeAll steps).state.slot with _ | held | s
    · simp [Host.isLive, hs, Slot.phase]
    · simp [Host.isLive, hs, Slot.phase]
    · exact (hslot s hs).elim
  · rintro ⟨before, step, after, rfl, hstep⟩
    obtain ⟨lost, hb, -⟩ := balanced_takeAll (balanced_start h₀) before
    have hr' := fun h : Meets _ _ before => hr (h.mono (List.prefix_append _ _))
    simp [not_surfaces hb (calm_takeAll h₀ hr') step] at hstep

end Calm

end HostLoop

end EngineShell
