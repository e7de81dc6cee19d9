import EngineShell.Proofs.Locks
import EngineShell.Proofs.Terminations

/-!
# The form and the store of a host

A host changes its form by operations of its login flow only; what it writes of the presentation
besides is the session's part (`LoginFlow.Goes`). So the lock of the form holds in every run of a
host (`agrees_takeAll`), and a fatal screen stays (`LoginFlow.Runs.screen`). The store is written
by the completion of an attempt that the engine accepted, and by nothing else (`driven_turn`).
-/

namespace EngineShell

namespace LoginFlow

/-- An operation of the flow, or a change of the session's part of the presentation. -/
def Goes (l l' : LoginFlow) : Prop :=
  l.Moves l' ∨ l'.pending = l.pending ∧ l'.board.shown.screen = l.board.shown.screen
    ∧ l'.board.shown.form = l.board.shown.form

/-- Any number of operations and changes, one after the other. -/
abbrev Runs : LoginFlow → LoginFlow → Prop :=
  Relation.ReflTransGen Goes

variable {l l' : LoginFlow}

theorem Moves.runs (h : l.Moves l') : l.Runs l' :=
  .single (.inl h)

theorem runs_present (l : LoginFlow) {f : Presentation → Presentation}
    (hs : (f l.board.shown).screen = l.board.shown.screen)
    (hf : (f l.board.shown).form = l.board.shown.form) : l.Runs (l.present f) :=
  .single (.inr ⟨rfl, hs, hf⟩)

theorem Goes.agrees (h : l.Goes l') (ha : l.board.shown.Agrees l.isPending) :
    l'.board.shown.Agrees l'.isPending := by
  rcases h with h | ⟨hp, hs, hf⟩
  · exact h.agrees ha
  · have hfatal : l'.board.shown.isFatal = l.board.shown.isFatal := by
      rw [Presentation.isFatal, Presentation.fatalMessage?, hs]
      rfl
    refine ⟨?_, ?_, ?_, ?_⟩ <;> rw [hfatal, hf]
    · rw [isPending, hp]
      exact ha.isOpen
    · rw [isPending, hp]
      exact ha.progress
    · rw [isPending, hp]
      exact ha.message
    · exact ha.fatal

theorem Goes.screen (h : l.Goes l') (hf : l.isFatal = true) :
    l'.board.shown.screen = l.board.shown.screen := by
  rcases h with h | ⟨-, hs, -⟩
  · exact h.screen hf
  · exact hs

theorem Runs.agrees (h : l.Runs l') (ha : l.board.shown.Agrees l.isPending) :
    l'.board.shown.Agrees l'.isPending := by
  induction h with
  | refl => exact ha
  | tail _ h ih => exact h.agrees ih

theorem Runs.screen (h : l.Runs l') {message environment : String}
    (hs : l.board.shown.screen = .fatal message environment) :
    l'.board.shown.screen = .fatal message environment := by
  induction h with
  | refl => exact hs
  | tail _ h ih =>
    refine (h.screen ?_).trans ih
    rw [isFatal, Presentation.isFatal, Presentation.fatalMessage?, ih]
    rfl

end LoginFlow

/-- A change of a host that runs its flow and leaves its store alone. -/
structure Host.Drives (h h' : Host) : Prop where
  login : h.login.Runs h'.login
  store : h'.store = h.store

namespace Host.Drives

variable {h h' h'' : Host}

theorem of_eq (hl : h'.login = h.login) (hs : h'.store = h.store) : h.Drives h' :=
  ⟨hl ▸ .refl, hs⟩

theorem refl (h : Host) : h.Drives h :=
  ⟨.refl, rfl⟩

theorem trans (d : h.Drives h') (d' : h'.Drives h'') : h.Drives h'' :=
  ⟨d.login.trans d'.login, d'.store.trans d.store⟩

theorem flow {login : LoginFlow} (hl : h.login.Moves login) : h.Drives { h with login } :=
  ⟨hl.runs, rfl⟩

end Host.Drives

namespace Turn

open Host

theorem drives_terminate (t : Turn) (o : Outcome) : t.host.Drives (t.terminate o).host := by
  unfold terminate
  split
  · exact .refl _
  · exact .of_eq rfl rfl
  · exact ⟨t.host.login.runs_present rfl rfl, rfl⟩

theorem drives_handle (h : Host) (e : HostEvent) :
    h.Drives (handle { host := h } e).host := by
  have displayModeLost : h.Drives h.onDisplayModeLost := by
    unfold onDisplayModeLost
    split <;> exact .of_eq rfl rfl
  cases e with
  | create =>
    simp only [handle, host_modify, onCreate]
    split_ifs
    · exact .refl h
    · exact ⟨(h.login.moves_start _ _).runs, rfl⟩
  | resume => exact displayModeLost
  | windowFocusChanged focused =>
    cases focused
    · exact .refl h
    · exact displayModeLost
  | layoutSettled =>
    simp only [handle, host_modify, onLayoutSettled]
    split <;> exact .of_eq rfl rfl
  | chromeVisibilityChanged flags =>
    simp only [handle, host_modify, onChrome]
    split <;> exact .of_eq rfl rfl
  | backPressed =>
    simp only [handle, onBack]
    split
    · exact .of_eq rfl rfl
    · exact drives_terminate { host := h } .success
  | destroy =>
    set left : Host := { h with destroyed := true, exitRequested := true }
    have hquit : h.Drives left := .of_eq rfl rfl
    exact hquit.trans (drives_terminate { host := left } .success)
  | saveState => exact .of_eq rfl rfl
  | fieldsEdited fields => exact .flow (h.login.moves_edit fields)
  | loginClicked c =>
    simp only [handle, host_modify, onLoginClicked]
    split_ifs
    · exact .refl h
    split
    · rename_i login hl
      refine (Drives.flow (LoginFlow.moves_submit hl)).trans ?_
      simp only [launch, dropSlot]
      split <;> exact ⟨login.runs_present rfl rfl, rfl⟩
    · exact .refl h
  | iconTapped time => exact .flow (h.login.moves_tap time)
  | quitClicked => exact .of_eq rfl rfl

theorem drives_onCommand (h : Host) (c : Command) :
    h.Drives ((onCommand { host := h } c).toOption.getD { host := h }).host := by
  rcases onCommand_spec { host := h } c with ⟨-, heq⟩ | ⟨-, -, heq⟩ | ⟨overlay, counter, -, heq⟩ <;>
    rw [heq]
  · exact .of_eq rfl rfl
  · exact .refl h
  · have hnote : h.Drives (note { host := h } overlay counter).host :=
      ⟨h.login.runs_present rfl rfl, rfl⟩
    rcases c.termination? with _ | o
    · exact hnote
    · exact hnote.trans (drives_terminate _ o)

theorem drives_onOutcome (h : Host) (o : Outcome) :
    h.Drives (onOutcome { host := h } o).host :=
  ⟨(h.login.moves_onOutcome o).runs, rfl⟩

theorem store_accept (h : Host) (s : Session) (c : Credentials) :
    (accept { host := h } s c).host.store
      = if s.accepted then (h.persist c).store else h.store := by
  simp only [accept]
  split_ifs
  · simp only [host_modify, persist]
    split <;> rfl
  · rfl

/-- A completion writes the store if the slot is open for it and the engine has accepted the
session. -/
theorem driven_onOpened (h : Host) (s : Session) (failure : Option Outcome) (c : Credentials) :
    h.login.Runs (onOpened { host := h } s failure c).host.login
      ∧ (onOpened { host := h } s failure c).host.store
        = if h.slot.phase = .opening ∧ s.accepted then (h.persist c).store else h.store := by
  by_cases hp : h.slot.phase = .opening
  · obtain ⟨held, hs⟩ := Slot.eq_opening hp
    rw [onOpened_of_opening (t := { host := h }) hs]
    simp only [hp, true_and, ← store_accept]
    have hlogin : (accept { host := h } s c).host.login = h.login := login_accept _ s c
    rcases failure with _ | f
    · rcases held with _ | o
      · exact ⟨hlogin ▸ LoginFlow.runs_present _ rfl rfl, rfl⟩
      · exact ⟨hlogin ▸ .refl, rfl⟩
    · exact ⟨hlogin ▸ .refl, rfl⟩
  · rw [onOpened_of_not_opening (t := { host := h }) hp]
    simp only [hp, false_and, if_false]
    exact ⟨.refl, rfl⟩

end Turn

namespace HostLoop

variable {l l' : HostLoop} {t : Turn} {step : HostStep}

/-- The credentials that a step writes into the store: those of a session that the engine has
accepted and that completes while the slot is open for it. -/
def keeps? (l : HostLoop) (step : HostStep) : Option Credentials :=
  match l.task? step with
  | some (.opened s _ c) => if l.state.slot.phase = .opening ∧ s.accepted then some c else none
  | _ => none

/-- What a turn does to the form and to the store. -/
theorem driven_turn (h : l.turn? step = some (l', t)) :
    l.state.login.Runs t.host.login
      ∧ t.host.store = (l.keeps? step).elim l.state.store fun c => (l.state.persist c).store := by
  have quiet : l.keeps? step = none → l.state.Drives t.host → l.state.login.Runs t.host.login
      ∧ t.host.store = (l.keeps? step).elim l.state.store fun c => (l.state.persist c).store := by
    intro hk hd
    rw [hk]
    exact ⟨hd.login, hd.store⟩
  cases turnOf h with
  | event e he =>
    have hk : l.keeps? step = none := by
      rcases task?_of_event he with htask | htask <;> simp [keeps?, htask]
    obtain ⟨seen, hseen⟩ := l.state.handle_eq e
    rw [hseen] at quiet ⊢
    exact quiet hk ((Turn.drives_handle l.state e).trans (.of_eq rfl rfl))
  | command k c rest hq =>
    exact quiet (by simp [keeps?, task?, hq]) (Turn.drives_onCommand l.state c)
  | outcome k o rest hq =>
    exact quiet (by simp [keeps?, task?, hq]) (Turn.drives_onOutcome l.state o)
  | opened s failure c rest hq =>
    obtain ⟨hlogin, hstore⟩ := Turn.driven_onOpened l.state s failure c
    refine ⟨hlogin, hstore.trans ?_⟩
    simp only [keeps?, task?, hq, List.head?_cons]
    split_ifs <;> rfl

theorem runs_take (l : HostLoop) (step : HostStep) :
    l.state.login.Runs (l.take step).state.login := by
  rcases hturn : l.turn? step with _ | ⟨l', t⟩
  · obtain ⟨platform, workers, heq⟩ := l.state_take hturn
    rw [heq]
  · rw [take_turn hturn]
    exact (driven_turn hturn).1

theorem runs_takeAll (l : HostLoop) (steps : List HostStep) :
    l.state.login.Runs (l.takeAll steps).state.login := by
  induction steps using List.reverseRecOn with
  | nil => exact .refl
  | append_singleton steps step ih =>
    rw [takeAll_concat]
    exact ih.trans (runs_take _ step)

/-- In every run of a host the form is locked exactly while a submission waits. -/
theorem agrees_takeAll {s : HostSetup} {l₀ : HostLoop} (h₀ : s.start = .ok l₀)
    (steps : List HostStep) :
    (l₀.takeAll steps).state.shown.Agrees (l₀.takeAll steps).state.login.isPending := by
  refine (runs_takeAll l₀ steps).agrees ?_
  obtain ⟨layout, rfl⟩ := start_eq h₀
  exact ⟨fun _ => rfl, fun _ => rfl, nofun, fun _ => rfl⟩

end HostLoop

end EngineShell
