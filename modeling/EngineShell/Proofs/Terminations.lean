import EngineShell.Proofs.Turns

/-!
# What ends a session

Two events and two commands end a session, each with an outcome of its own (`termination?`). While
the session is opening that outcome is held (`Turn.hold_terminate`); a session that is up is
torn down, and its outcome is sent (`Turn.terminate_of_live`). `Turn.onCommand_spec` says what a
command does besides: it writes on the overlay and is counted.
-/

namespace EngineShell

/-- The outcome with which an event ends a session. -/
def HostEvent.termination? : HostEvent → Option Outcome
  | backPressed | destroy => some .success
  | _ => none

def Command.termination? (c : Command) : Option Outcome :=
  match c.action? with
  | some .fatalTermination => some (.fatal c.argument)
  | some .recoverableTermination => some (.recoverable c.argument)
  | _ => none

/-- A slot after a termination that was met while it was opening: the first one stays. -/
def Slot.hold : Slot → Option Outcome → Slot
  | opening held, o => opening (held.or o)
  | slot, _ => slot

@[simp] theorem Slot.hold_none (slot : Slot) : slot.hold none = slot := by
  cases slot <;> simp [hold]

namespace Widgets

/-- A session is ended by the commands that say so, which leave the widgets alone. -/
theorem apply_eq_terminate_iff {policy : Policy} {finishing : Bool} {w w' : Widgets} {c : Command}
    {o : Outcome} : w.apply policy finishing c = .ok (.terminate o, w')
      ↔ c.termination? = some o ∧ w = w' := by
  unfold Command.termination? apply
  rcases c.action? with _ | action
  · simp
  cases action with
  | fatalTermination | recoverableTermination => simp [perform]
  | startImageProgress | updateImageProgress =>
    simp only [perform, readValue]
    rcases Text.readInt32 c.argument.toList with _ | i
    · cases policy <;> simp [bind, Except.bind, Policy.settle, Except.map]
    · cases w.image <;> cases policy <;>
        simp [bind, Except.bind, require, Policy.settle, Except.map]
  | setTitle =>
    simp only [perform]
    cases w.repoTitle <;> cases policy <;> simp [require, Policy.settle, Except.map]
  | showOpeningProgress =>
    simp only [perform]
    cases w.opening <;> cases policy <;> simp [require, Policy.settle, Except.map]
  | showModelProgress | hideModelProgress =>
    simp only [perform]
    cases w.model <;> cases policy <;> simp [require, Policy.settle, Except.map]
  | queryFinishing => simp [perform]
  | setSecondaryValue => cases hs : w.secondary <;> simp [perform, offer, hs]
  | setPrimaryValue => cases hs : w.primary <;> simp [perform, offer, hs]

end Widgets

namespace Turn

variable {t : Turn}

theorem phase_terminate (t : Turn) (o : Outcome) :
    (t.terminate o).host.shown.phase = t.host.shown.phase := by
  unfold terminate
  split <;> rfl

theorem finish_of_unsettled (t : Turn) {s : Session} (hs : s.sender.settled = false)
    (o : Outcome) : t.finish s o = {
      host := { t.host with platform := (s.teardown t.host.platform).2.2 }
      posts := t.posts ++ [.outcome s.sink o] } := by
  simp [finish, Session.finish, OutcomeSender.send, hs, postOutcome, modify]

/-- Ending a session that has sent nothing yet tears it down and sends its outcome. -/
theorem terminate_of_live {s : Session} (h : t.host.slot = .live s)
    (hs : s.sender.settled = false) (o : Outcome) :
    t.terminate o = {
      host := { t.host with
        slot := .idle
        platform := (s.teardown t.host.platform).2.2
        login := t.host.login.present fun p => { p with overlayAttached := false } }
      posts := t.posts ++ [.outcome s.sink o] } := by
  simp only [terminate, h, finish_of_unsettled _ hs]
  rfl

/-- A command is noted: it writes on the overlay, and is counted. -/
def note (t : Turn) (overlay : Widgets) (counter : Counter) : Turn :=
  (t.modify fun h => h.present fun p => { p with overlay }).modify (·.count counter)

/-- What a command does. Without a session it is only counted, and without a dispatcher, or if the
policy does not tolerate it, it does nothing; else it is noted, and may end the session. -/
theorem onCommand_spec (t : Turn) (c : Command) :
    (t.host.slot = .idle ∧ (t.onCommand c).toOption.getD t = t.modify (·.count .afterClose))
      ∨ (t.host.slot ≠ .idle ∧ (t.host.dispatching = none ∨ c.termination? = none)
        ∧ (t.onCommand c).toOption.getD t = t)
      ∨ ∃ overlay counter, t.host.slot ≠ .idle
        ∧ (t.onCommand c).toOption.getD t = match c.termination? with
          | some o => (t.note overlay counter).terminate o
          | none => t.note overlay counter := by
  unfold onCommand
  split
  · rename_i hs
    exact .inl ⟨hs, rfl⟩
  rename_i hs
  split
  · rename_i hd
    exact .inr (.inl ⟨hs, .inl hd, rfl⟩)
  dsimp only
  split
  · rename_i v hv
    refine .inr (.inl ⟨hs, .inr ?_, rfl⟩)
    rcases ht : c.termination? with _ | o
    · rfl
    · rw [Widgets.apply_eq_terminate_iff.2 ⟨ht, rfl⟩] at hv
      cases hv
  rename_i d overlay hd
  refine .inr (.inr ?_)
  rcases ht : c.termination? with _ | o
  · cases d with
    | terminate o =>
      have := (Widgets.apply_eq_terminate_iff.1 hd).1
      simp [ht] at this
    | applied => exact ⟨overlay, .applied, hs, rfl⟩
    | ignored => exact ⟨overlay, .ignored, hs, rfl⟩
    | rejected v => exact ⟨overlay, .rejected, hs, rfl⟩
    | query n => exact ⟨overlay, .query, hs, rfl⟩
  · rw [Widgets.apply_eq_terminate_iff.2 ⟨ht, rfl⟩] at hd
    cases hd
    exact ⟨_, .applied, hs, rfl⟩

theorem hold_terminate (hs : ∀ s, t.host.slot ≠ .live s) (o : Outcome) :
    (t.terminate o).host.slot = t.host.slot.hold (some o) ∧ (t.terminate o).posts = t.posts := by
  unfold terminate
  split <;> rename_i hslot
  · simp [hslot, Slot.hold]
  · simp [hslot, Slot.hold]
  · exact (hs _ hslot).elim

/-- Without a live session an event can only have its termination held. -/
theorem hold_handle {h : Host} (hs : ∀ s, h.slot ≠ .live s) {e : HostEvent}
    (hno : ∀ c, e = .loginClicked c → h.takes = false) :
    (handle { host := h } e).host.slot = h.slot.hold e.termination?
      ∧ (handle { host := h } e).posts = [] := by
  have displayModeLost : h.onDisplayModeLost.slot = h.slot := by
    unfold Host.onDisplayModeLost
    split <;> rfl
  cases e with
  | create =>
    refine ⟨?_, rfl⟩
    simp only [handle, host_modify, Host.onCreate, HostEvent.termination?, Slot.hold_none]
    split_ifs <;> rfl
  | resume => exact ⟨displayModeLost.trans (Slot.hold_none _).symm, rfl⟩
  | windowFocusChanged focused =>
    cases focused
    · exact ⟨(Slot.hold_none _).symm, rfl⟩
    · exact ⟨displayModeLost.trans (Slot.hold_none _).symm, rfl⟩
  | layoutSettled =>
    refine ⟨Eq.trans ?_ (Slot.hold_none _).symm, rfl⟩
    simp only [handle, host_modify, Host.onLayoutSettled]
  | chromeVisibilityChanged flags =>
    refine ⟨Eq.trans ?_ (Slot.hold_none _).symm, rfl⟩
    simp only [handle, host_modify, Host.onChrome]
  | backPressed =>
    simp only [handle, onBack]
    split
    · rename_i hslot
      replace hslot : h.slot = .idle := hslot
      simp [hslot, Slot.hold]
    · exact hold_terminate hs .success
  | destroy =>
    exact hold_terminate
      (t := modify { host := h } fun h => { h with destroyed := true, exitRequested := true }) hs _
  | loginClicked c =>
    simp only [handle, host_modify, Host.onLoginClicked_of_not_takes (hno c rfl)]
    exact ⟨(Slot.hold_none _).symm, rfl⟩
  | _ => exact ⟨(Slot.hold_none _).symm, rfl⟩

theorem hold_onCommand {h : Host} (hs : ∀ s, h.slot ≠ .live s)
    (hd : h.slot ≠ .idle → h.dispatching ≠ none) (c : Command) :
    ((onCommand { host := h } c).toOption.getD { host := h }).host.slot
        = h.slot.hold c.termination?
      ∧ ((onCommand { host := h } c).toOption.getD { host := h }).posts = [] := by
  rcases onCommand_spec { host := h } c with
    ⟨hslot, heq⟩ | ⟨hslot, hnone, heq⟩ | ⟨overlay, counter, -, heq⟩ <;> rw [heq]
  · replace hslot : h.slot = .idle := hslot
    simp [hslot, Slot.hold, Host.count]
  · rw [hnone.resolve_left (hd hslot), Slot.hold_none]
    exact ⟨rfl, rfl⟩
  · rcases c.termination? with _ | o
    · exact ⟨(Slot.hold_none _).symm, rfl⟩
    · exact hold_terminate (t := note { host := h } overlay counter) hs o

end Turn

end EngineShell
