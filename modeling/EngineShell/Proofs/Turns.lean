import EngineShell.Host.Work
import EngineShell.Proofs.Errands
import EngineShell.Proofs.Login

/-!
# What turns come to

Most of what a host does touches neither its sessions nor the submission that waits: it is quiet
(`Host.Quiet`). `handle_cases` and `onCommand_cases` say what an event and a command can come to
besides, `handle_eq` that observers only write down what they see, and `launches_onLoginClicked`
that a submission that is taken starts an attempt.
-/

namespace EngineShell

theorem Slot.eq_opening {slot : Slot} (h : slot.phase = .opening) :
    ∃ held, slot = .opening held := by
  cases slot with
  | opening held => exact ⟨held, rfl⟩
  | _ => simp [phase] at h

/-- A change of a host that its books are not about. -/
structure Host.Quiet (h h' : Host) : Prop where
  slot : h'.slot.errands = h.slot.errands
  phase : h'.slot.phase = h.slot.phase
  workers : h'.workers = h.workers
  dispatching : h'.dispatching = h.dispatching
  sinks : h'.platform.sinks = h.platform.sinks
  ids : h'.platform.windows.ids = h.platform.windows.ids
  login : h.login.Stays h'.login

namespace Host.Quiet

variable {h : Host}

theorem platform {p : Platform} (hs : p.sinks = h.platform.sinks)
    (hw : p.windows.ids = h.platform.windows.ids) : h.Quiet { h with platform := p } :=
  ⟨rfl, rfl, rfl, rfl, hs, hw, .refl _⟩

theorem flow {login : LoginFlow} (hl : h.login.Stays login) : h.Quiet { h with login } :=
  ⟨rfl, rfl, rfl, rfl, rfl, rfl, hl⟩

theorem trans {h' h'' : Host} (q : h.Quiet h') (q' : h'.Quiet h'') : h.Quiet h'' :=
  ⟨q'.slot.trans q.slot, q'.phase.trans q.phase, q'.workers.trans q.workers,
    q'.dispatching.trans q.dispatching, q'.sinks.trans q.sinks, q'.ids.trans q.ids,
    q.login.trans q'.login⟩

theorem refl (h : Host) : h.Quiet h :=
  ⟨rfl, rfl, rfl, rfl, rfl, rfl, .refl _⟩

theorem present {f : Presentation → Presentation} (hs : (f h.shown).screen = h.shown.screen)
    (hf : (f h.shown).form.submitEnabled = h.shown.form.submitEnabled)
    (hp : (f h.shown).phase = h.shown.phase)
    (ha : (f h.shown).overlayAttached = h.shown.overlayAttached) : h.Quiet (h.present f) :=
  flow (h.login.stays_present hs hf hp ha)

end Host.Quiet

namespace Session

theorem layoutPass_sinks (s : Session) (p : Platform) :
    (s.layoutPass p).2.sinks = p.sinks ∧ (s.layoutPass p).2.windows = p.windows := by
  unfold layoutPass
  split <;> exact ⟨rfl, rfl⟩

theorem onChrome_sinks (s : Session) (p : Platform) (flags : ChromeFlags) :
    (s.onChrome p flags).2.sinks = p.sinks ∧ (s.onChrome p flags).2.windows = p.windows := by
  unfold onChrome
  split_ifs
  · split
    · exact s.layoutPass_sinks _
    · exact ⟨rfl, rfl⟩
  · exact ⟨rfl, rfl⟩

theorem reassert_sinks (s : Session) (p : Platform) :
    (s.reassert p).sinks = p.sinks ∧ (s.reassert p).windows = p.windows := by
  unfold reassert
  split_ifs <;> exact ⟨rfl, rfl⟩

end Session

namespace Host

theorem quiet_onCreate (h : Host) : h.Quiet h.onCreate := by
  unfold onCreate
  split_ifs
  · exact .refl h
  · exact ⟨rfl, rfl, rfl, rfl, rfl, rfl, h.login.stays_start _ _⟩

theorem quiet_onDisplayModeLost (h : Host) : h.Quiet h.onDisplayModeLost := by
  unfold onDisplayModeLost
  split
  · rename_i s _
    obtain ⟨hs, hw⟩ := s.reassert_sinks h.platform
    exact .platform hs (congrArg Windows.ids hw)
  · exact .refl h

theorem quiet_onLayoutSettled (h : Host) : h.Quiet h.onLayoutSettled := by
  unfold onLayoutSettled
  split
  · rename_i s _
    obtain ⟨hs, hw⟩ := s.layoutPass_sinks h.platform
    exact .platform hs (congrArg Windows.ids hw)
  · exact .refl h

theorem quiet_onChrome (h : Host) (flags : ChromeFlags) : h.Quiet (h.onChrome flags) := by
  unfold onChrome
  split
  · rename_i s _
    obtain ⟨hs, hw⟩ := s.onChrome_sinks h.platform flags
    exact .platform hs (congrArg Windows.ids hw)
  · exact .refl h

theorem quiet_persist (h : Host) (c : Credentials) : h.Quiet (h.persist c) := by
  unfold persist
  split
  · exact ⟨rfl, rfl, rfl, rfl, rfl, rfl, .refl _⟩
  · exact .refl h

/-- The observers of an event write down what they see, and do nothing else. -/
theorem handle_eq (h : Host) (e : HostEvent) : ∃ seen,
    (h.handle e).2 = (Turn.handle { host := h } e).modify fun h => { h with observed := seen } := by
  -- the host's own handler comes first; the rest is by induction on the observers behind it
  have fold : ∀ (labels : List (EventKind × String)) (t : Turn), ∃ seen,
      ((labels.map fun o => observer o.2).foldl (fun t handler => handler t e) t)
        = t.modify fun h => { h with observed := seen } := by
    intro labels
    induction labels with
    | nil => exact fun t => ⟨t.host.observed, rfl⟩
    | cons o labels ih =>
      intro t
      obtain ⟨seen, hseen⟩ := ih (observer o.2 t e)
      exact ⟨seen, hseen⟩
  simp only [handle, Hooks.dispatch, handlers_hooks, List.foldl_cons]
  exact fold _ _

/-- Whether the host takes a submission. -/
def takes (h : Host) : Bool :=
  h.created && !h.destroyed && !h.login.isFatal && !h.login.isPending && h.login.isOpen

/-- The session that an attempt starts with. -/
def newSession (h : Host) : Session :=
  { sink := h.platform.sinks.length, layout := h.layout, params := h.params }

theorem isFresh_newSession (h : Host) : h.newSession.IsFresh :=
  ⟨rfl, rfl, rfl⟩

/-- An attempt has started. -/
structure Launches (h h' : Host) (c : Credentials) : Prop where
  slot : h'.slot = .opening none
  workers : h'.workers = h.workers ++ [{ session := h.newSession, credentials := c }]
  dispatching : h'.dispatching = some h.platform.sinks.length
  platform : h'.platform = h.platform.addSink {}
  pending : h'.login.pending = some c
  isFatal : h'.login.isFatal = false
  locked : h'.login.isOpen = false
  phase : h'.shown.phase = .opening
  attached : h'.shown.overlayAttached = h.shown.overlayAttached

theorem onLoginClicked_of_not_takes {h : Host} (ht : h.takes = false) (c : Credentials) :
    h.onLoginClicked c = h := by
  unfold onLoginClicked
  split_ifs with hc
  · rfl
  · split
    · rename_i login hl
      obtain ⟨⟨hf, hp, ho⟩, -⟩ := LoginFlow.submit_eq_ok hl
      simp_all [takes]
    · rfl

theorem free_of_takes {h : Host} (ht : h.takes = true) : h.login.isPending = false := by
  simp only [takes, Bool.and_eq_true, Bool.not_eq_true'] at ht
  exact ht.1.2

theorem takes_eq (h : Host) (c : Credentials) :
    h.takes = (h.created && !h.destroyed && (h.login.submit c).toOption.isSome) := by
  unfold takes LoginFlow.submit LoginFlow.isOpen
  cases h.created <;> cases h.destroyed <;> cases h.login.isFatal <;> cases h.login.isPending <;>
    cases h.login.board.shown.form.submitEnabled <;> rfl

theorem not_fatal_of_takes {h : Host} (ht : h.takes = true) : h.login.isFatal = false := by
  simp only [takes, Bool.and_eq_true, Bool.not_eq_true'] at ht
  exact ht.1.1.2

theorem dropSlot_of_not_live {h : Host} (hs : ∀ s, h.slot ≠ .live s) : h.dropSlot = h := by
  unfold dropSlot
  split
  · rename_i s h'
    exact (hs s h').elim
  · rfl

theorem launches_onLoginClicked {h : Host} (ht : h.takes = true) (hs : ∀ s, h.slot ≠ .live s)
    (c : Credentials) : h.Launches (h.onLoginClicked c) c := by
  simp only [takes, Bool.and_eq_true, Bool.not_eq_true'] at ht
  obtain ⟨⟨⟨⟨hc, hd⟩, hf⟩, hp⟩, ho⟩ := ht
  have hl : ∃ login, h.login.submit c = .ok login := by
    refine ⟨_, (if_neg (by simpa using hf)).trans (if_neg ?_)⟩
    rw [LoginFlow.isOpen] at ho
    simp [hp, ho]
  obtain ⟨login, hl⟩ := hl
  obtain ⟨-, hpend, hfatal, hlocked, hattached⟩ := LoginFlow.submit_eq_ok hl
  simp only [onLoginClicked, hc, hd, hl, launch]
  rw [if_neg (by simp), dropSlot_of_not_live (by exact hs)]
  exact ⟨rfl, rfl, rfl, rfl, hpend, hfatal, hlocked, rfl, hattached⟩

end Host

/-- A turn goes on quietly, and posts nothing. -/
structure Turn.Quiet (t t' : Turn) : Prop where
  host : t.host.Quiet t'.host
  posts : t'.posts = t.posts

namespace Turn

/-- What the host itself does about an event: it goes on quietly, or after that it puts an end to
the session, or it takes a submission or not. -/
theorem handle_cases (t : Turn) (e : HostEvent) :
    t.Quiet (t.handle e) ∨ (∃ t', t.Quiet t' ∧ t.handle e = t'.terminate .success)
      ∨ ∃ c, e = .loginClicked c ∧ t.handle e = t.modify (·.onLoginClicked c) := by
  cases e with
  | create => exact .inl ⟨t.host.quiet_onCreate, rfl⟩
  | resume => exact .inl ⟨t.host.quiet_onDisplayModeLost, rfl⟩
  | windowFocusChanged focused =>
    cases focused
    · exact .inl ⟨.refl _, rfl⟩
    · exact .inl ⟨t.host.quiet_onDisplayModeLost, rfl⟩
  | layoutSettled => exact .inl ⟨t.host.quiet_onLayoutSettled, rfl⟩
  | chromeVisibilityChanged flags => exact .inl ⟨t.host.quiet_onChrome flags, rfl⟩
  | saveState => exact .inl ⟨⟨rfl, rfl, rfl, rfl, rfl, rfl, .refl _⟩, rfl⟩
  | fieldsEdited fields => exact .inl ⟨.flow (t.host.login.stays_edit fields), rfl⟩
  | iconTapped time => exact .inl ⟨.flow (t.host.login.stays_tap time), rfl⟩
  | quitClicked => exact .inl ⟨⟨rfl, rfl, rfl, rfl, rfl, rfl, .refl _⟩, rfl⟩
  | backPressed =>
    by_cases hs : t.host.slot = .idle
    · refine .inl ⟨?_, ?_⟩ <;> simp only [handle, onBack, hs]
      · exact ⟨rfl, rfl, rfl, rfl, rfl, rfl, .refl _⟩
      · rfl
    · refine .inr (.inl ⟨t, ⟨.refl _, rfl⟩, ?_⟩)
      simp [handle, onBack]
  | destroy =>
    refine .inr (.inl ⟨t.modify fun h => { h with destroyed := true, exitRequested := true },
      ⟨?_, rfl⟩, rfl⟩)
    exact ⟨rfl, rfl, rfl, rfl, rfl, rfl, .refl _⟩
  | loginClicked c => exact .inr (.inr ⟨c, rfl, rfl⟩)

/-- What a command comes to: the host goes on quietly, and may then put an end to the session. -/
theorem onCommand_cases (t : Turn) (c : Command) :
    ∃ t', t.Quiet t' ∧ ((t.onCommand c).toOption.getD t = t'
      ∨ ∃ o, (t.onCommand c).toOption.getD t = t'.terminate o) := by
  have count : ∀ (f : Presentation → Presentation) (counter : Counter),
      (f t.host.shown).screen = t.host.shown.screen →
      (f t.host.shown).form.submitEnabled = t.host.shown.form.submitEnabled →
      (f t.host.shown).phase = t.host.shown.phase →
      (f t.host.shown).overlayAttached = t.host.shown.overlayAttached →
      t.Quiet ((t.modify fun h => h.present f).modify (·.count counter)) :=
    fun f _ hs hf hp ha =>
      ⟨⟨rfl, rfl, rfl, rfl, rfl, rfl, t.host.login.stays_present hs hf hp ha⟩, rfl⟩
  unfold onCommand
  split
  · refine ⟨t.modify (·.count .afterClose), ⟨?_, rfl⟩, .inl rfl⟩
    exact ⟨rfl, rfl, rfl, rfl, rfl, rfl, .refl _⟩
  split
  · exact ⟨t, ⟨.refl _, rfl⟩, .inl rfl⟩
  dsimp only
  split
  · exact ⟨t, ⟨.refl _, rfl⟩, .inl rfl⟩
  rename_i d overlay _
  split
  case h_5 => exact ⟨_, count _ _ rfl rfl rfl rfl, .inr ⟨_, rfl⟩⟩
  all_goals exact ⟨_, count _ _ rfl rfl rfl rfl, .inl rfl⟩

/-- The slot opens up for a completion, and credentials that the engine accepted are kept. -/
def accept (t : Turn) (s : Session) (c : Credentials) : Turn :=
  let t := t.modify fun h => { h with slot := .idle }
  if s.accepted then t.modify (·.persist c) else t

theorem quiet_accept (t : Turn) (s : Session) (c : Credentials) :
    (t.modify fun h => { h with slot := .idle }).Quiet (t.accept s c) := by
  unfold accept
  split_ifs
  · exact ⟨Host.quiet_persist _ c, rfl⟩
  · exact ⟨.refl _, rfl⟩

theorem login_accept (t : Turn) (s : Session) (c : Credentials) :
    (t.accept s c).host.login = t.host.login := by
  simp only [accept, Host.persist]
  split_ifs
  · simp only [host_modify]
    split <;> rfl
  · rfl

theorem onOpened_of_opening {t : Turn} {held : Option Outcome} (hs : t.host.slot = .opening held)
    (s : Session) (failure : Option Outcome) (c : Credentials) :
    t.onOpened s failure c = match failure with
      | some _ => (t.accept s c).modify fun h => { h with platform := (s.teardown h.platform).2.2 }
      | none => (t.accept s c).enterLive held s := by
  unfold onOpened
  split
  · rename_i h
    rw [hs] at h
    cases h
    rfl
  · rename_i h
    exact (h held hs).elim

theorem onOpened_of_not_opening {t : Turn} (hp : t.host.slot.phase ≠ .opening) (s : Session)
    (failure : Option Outcome) (c : Credentials) :
    t.onOpened s failure c
      = t.modify fun h => { h with platform := (s.teardown h.platform).2.2 } := by
  unfold onOpened
  split
  · rename_i h
    simp [h, Slot.phase] at hp
  · rfl

/-- A turn that starts no attempt and sends nothing but outcomes. -/
structure Steady (h : Host) (t : Turn) : Prop where
  attempts : t.host.platform.sinks.length = h.platform.sinks.length
  workers : t.host.workers = h.workers
  pending : t.host.login.pending = h.login.pending ∨ t.host.login.pending = none
  posts : ∀ p ∈ t.posts, ∃ k o, p = .outcome k o

namespace Steady

variable {h : Host} {t t' : Turn}

theorem refl (h : Host) : Steady h { host := h } :=
  ⟨rfl, rfl, .inl rfl, by simp⟩

theorem quiet (ht : Steady h t) (q : t.Quiet t') : Steady h t' where
  attempts := (congrArg List.length q.host.sinks).trans ht.attempts
  workers := q.host.workers.trans ht.workers
  pending := by
    rw [q.host.login.pending]
    exact ht.pending
  posts := q.posts ▸ ht.posts

theorem teardown (ht : Steady h t) (s : Session) :
    Steady h (t.modify fun h => { h with platform := (s.teardown h.platform).2.2 }) :=
  ⟨(s.length_sinks_teardown t.host.platform).trans ht.attempts, ht.workers, ht.pending, ht.posts⟩

theorem finish (ht : Steady h t) (s : Session) (o : Outcome) : Steady h (t.finish s o) := by
  refine ⟨(ht.teardown s).attempts, ht.workers, ht.pending, fun p hp => ?_⟩
  rcases List.mem_append.1 hp with hp | hp
  · exact ht.posts p hp
  · obtain ⟨o', -, rfl⟩ := List.mem_map.1 hp
    exact ⟨_, _, rfl⟩

theorem terminate (ht : Steady h t) (o : Outcome) : Steady h (t.terminate o) := by
  unfold Turn.terminate
  split
  · exact ht
  · exact ⟨ht.attempts, ht.workers, ht.pending, ht.posts⟩
  · rename_i s _
    have hidle : Steady h (t.modify fun h => { h with slot := .idle }) :=
      ⟨ht.attempts, ht.workers, ht.pending, ht.posts⟩
    obtain ⟨ha, hw, hp, hposts⟩ := hidle.finish s o
    exact ⟨ha, hw, hp, hposts⟩

end Steady

theorem steady_onCommand (h : Host) (c : Command) :
    Steady h ((onCommand { host := h } c).toOption.getD { host := h }) := by
  obtain ⟨t, q, heq | ⟨o, heq⟩⟩ := onCommand_cases { host := h } c
  · exact heq ▸ (Steady.refl h).quiet q
  · exact heq ▸ ((Steady.refl h).quiet q).terminate o

theorem steady_onOutcome (h : Host) (o : Outcome) : Steady h (onOutcome { host := h } o) :=
  ⟨rfl, rfl, .inr (h.login.pending_onOutcome o), by simp [onOutcome, modify]⟩

theorem steady_onOpened (h : Host) (s : Session) (failure : Option Outcome) (c : Credentials) :
    Steady h (onOpened { host := h } s failure c) := by
  by_cases hp : h.slot.phase = .opening
  · obtain ⟨held, hs⟩ := Slot.eq_opening hp
    have hidle : Steady h (modify { host := h } fun h => { h with slot := .idle }) :=
      ⟨rfl, rfl, .inl rfl, by simp [modify]⟩
    have ht := hidle.quiet (quiet_accept { host := h } s c)
    rw [onOpened_of_opening (t := { host := h }) hs]
    rcases failure with _ | f
    · rcases held with _ | o
      · obtain ⟨hsinks, -⟩ := s.layoutPass_sinks (accept { host := h } s c).host.platform
        exact ⟨(congrArg List.length hsinks).trans ht.attempts, ht.workers, ht.pending, ht.posts⟩
      · exact ht.finish s o
    · exact ht.teardown s
  · rw [onOpened_of_not_opening (t := { host := h }) hp]
    exact (Steady.refl h).teardown s

theorem steady_handle {h : Host} (hn : h.login.isPending = false → ∀ s, h.slot ≠ .live s)
    (e : HostEvent) :
    (∃ c, e = .loginClicked c ∧ h.takes = true ∧ h.Launches (h.handle e).2.host c
        ∧ (h.handle e).2.posts = [])
      ∨ (∀ c, e = .loginClicked c → h.takes = false) ∧ Steady h (h.handle e).2 := by
  have observe : ∀ {t : Turn} {seen : List Observation}, Steady h t →
      Steady h (t.modify fun h => { h with observed := seen }) :=
    fun ht => ⟨ht.attempts, ht.workers, ht.pending, ht.posts⟩
  obtain ⟨seen, hseen⟩ := h.handle_eq e
  rw [hseen]
  -- only a click starts an attempt, and only if the submission is taken
  by_cases hlogin : ∃ c, e = .loginClicked c
  · obtain ⟨c, rfl⟩ := hlogin
    rw [show handle { host := h } (.loginClicked c) = { host := h.onLoginClicked c } from rfl]
    cases ht : h.takes
    · rw [Host.onLoginClicked_of_not_takes ht]
      exact .inr ⟨fun _ _ => rfl, observe (.refl h)⟩
    · have hl := Host.launches_onLoginClicked ht (hn (Host.free_of_takes ht)) c
      refine .inl ⟨c, rfl, rfl, ?_, rfl⟩
      exact ⟨hl.slot, hl.workers, hl.dispatching, hl.platform, hl.pending, hl.isFatal, hl.locked,
        hl.phase, hl.attached⟩
  · refine .inr ⟨fun c hc => (hlogin ⟨c, hc⟩).elim, observe ?_⟩
    rcases handle_cases { host := h } e with q | ⟨t, q, heq⟩ | ⟨c, hc, -⟩
    · exact (Steady.refl h).quiet q
    · exact heq ▸ ((Steady.refl h).quiet q).terminate .success
    · exact (hlogin ⟨c, hc⟩).elim

end Turn

end EngineShell
