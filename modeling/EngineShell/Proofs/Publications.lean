import EngineShell.Proofs.Terminations

/-!
# What is published of a session

The phases and the attachments that observers heard of are those that the presentation went
through: a step of a host changes each of the two at most once, and publishes it if it has changed
(`HostLoop.plain_take`). The attachments that were published alternate in any case
(`HostLoop.alternates_takeAll`).
-/

namespace EngineShell

namespace Change

def phase? : Change → Option Phase
  | phase p => some p
  | _ => none

def attached? : Change → Option Bool
  | overlayAttached attached => some attached
  | _ => none

end Change

namespace Presentation

theorem filterMap_ifDiffers {α β : Type} [DecidableEq α] (before after : α) (change : α → Change)
    (f : Change → Option β) : (ifDiffers before after change).filterMap f
      = if before = after then [] else (f (change after)).toList := by
  unfold ifDiffers
  split_ifs
  · rfl
  · cases h : f (change after) <;> simp [h]

theorem phases_changes (p p' : Presentation) : (p.changes p').filterMap Change.phase?
    = if p.phase = p'.phase then [] else [p'.phase] := by
  simp [changes, List.filterMap_append, filterMap_ifDiffers, Change.phase?, Change.ofLogin,
    Change.ofBar]

theorem attachments_changes (p p' : Presentation) : (p.changes p').filterMap Change.attached?
    = if p.overlayAttached = p'.overlayAttached then [] else [p'.overlayAttached] := by
  simp [changes, List.filterMap_append, filterMap_ifDiffers, Change.attached?, Change.ofLogin,
    Change.ofBar]

end Presentation

namespace Board

/-- The phases that were published, in order. -/
def phases (b : Board) : List Phase :=
  b.published.filterMap Change.phase?

def attachments (b : Board) : List Bool :=
  b.published.filterMap Change.attached?

/-- What was published of the session is what differs. -/
structure Plain (b b' : Board) : Prop where
  phases : b'.phases
    = b.phases ++ if b.shown.phase = b'.shown.phase then [] else [b'.shown.phase]
  attachments : b'.attachments
    = b.attachments ++ if b.shown.overlayAttached = b'.shown.overlayAttached then []
      else [b'.shown.overlayAttached]

namespace Plain

variable {b b' b'' : Board}

theorem refl (b : Board) : b.Plain b :=
  ⟨by simp, by simp⟩

theorem of_update (h : b'.published = b.published ++ b.shown.changes b'.shown) : b.Plain b' where
  phases := by
    rw [Board.phases, h, List.filterMap_append, Presentation.phases_changes]
    rfl
  attachments := by
    rw [Board.attachments, h, List.filterMap_append, Presentation.attachments_changes]
    rfl

/-- A second change may follow, if the two do not change the same. -/
theorem trans (h : b.Plain b') (h' : b'.Plain b'')
    (hp : b'.shown.phase = b.shown.phase ∨ b''.shown.phase = b'.shown.phase)
    (ha : b'.shown.overlayAttached = b.shown.overlayAttached
      ∨ b''.shown.overlayAttached = b'.shown.overlayAttached) : b.Plain b'' where
  phases := by
    rw [h'.phases, h.phases]
    rcases hp with hp | hp <;> simp [hp]
  attachments := by
    rw [h'.attachments, h.attachments]
    rcases ha with ha | ha <;> simp [ha]

end Plain

/-- The attachments that were published alternate, up to the one that is shown. -/
def Alternates (b : Board) : Prop :=
  ∃ n, b.attachments = (List.replicate n [true, false]).flatten
    ++ if b.shown.overlayAttached then [true] else []

theorem Alternates.plain {b b' : Board} (h : b.Alternates) (hb : b.Plain b') : b'.Alternates := by
  obtain ⟨n, hn⟩ := h
  rw [Alternates, hb.attachments, hn]
  cases b.shown.overlayAttached <;> cases b'.shown.overlayAttached
  · exact ⟨n, by simp⟩
  · exact ⟨n, by simp⟩
  · exact ⟨n + 1, by simp [List.replicate_succ']⟩
  · exact ⟨n, by simp⟩

end Board

namespace LoginFlow

open Board

theorem plain_showFatal (l : LoginFlow) (m : String) : l.board.Plain (l.showFatal m).board := by
  unfold showFatal
  split_ifs
  · exact .refl _
  · exact .of_update rfl

theorem plain_start (l : LoginFlow) (saved : Option SavedRecord) (stored : Prefill) :
    l.board.Plain (l.start saved stored).board := by
  unfold start
  split
  · exact l.plain_showFatal _
  · exact .of_update rfl
  · split_ifs
    · exact .refl _
    · exact .of_update rfl

theorem plain_tap (l : LoginFlow) (now : Nat) : l.board.Plain (l.tap now).2.board := by
  rw [tap_snd]
  split_ifs
  · exact ({ l with taps := {} }.count .fatal).plain_showFatal _
  · exact .refl _

theorem plain_onOutcome (l : LoginFlow) (o : Outcome) : l.board.Plain (l.onOutcome o).board := by
  cases hf : l.isFatal
  · rw [onOutcome_of_not_fatal hf]
    cases o with
    | fatal m => exact ({ l with pending := none }.count .fatal).plain_showFatal m
    | _ => exact .of_update rfl
  · rw [onOutcome_of_fatal hf]
    exact .refl _

end LoginFlow

namespace Turn

theorem plain_terminate (t : Turn) (o : Outcome) :
    t.host.login.board.Plain (t.terminate o).host.login.board := by
  unfold terminate
  split
  · exact .refl _
  · exact .refl _
  · exact .of_update rfl

theorem plain_handle (h : Host) (e : HostEvent) :
    h.login.board.Plain (handle { host := h } e).host.login.board := by
  have same : ∀ {login : LoginFlow}, login = h.login → h.login.board.Plain login.board := by
    rintro _ rfl
    exact .refl _
  have displayModeLost : h.onDisplayModeLost.login = h.login := by
    unfold Host.onDisplayModeLost
    split <;> rfl
  cases e with
  | create =>
    simp only [handle, host_modify, Host.onCreate]
    split_ifs
    · exact .refl _
    · exact h.login.plain_start _ _
  | resume => exact same displayModeLost
  | windowFocusChanged focused =>
    cases focused
    · exact .refl _
    · exact same displayModeLost
  | layoutSettled =>
    refine same ?_
    simp only [handle, host_modify, Host.onLayoutSettled]
    split <;> rfl
  | chromeVisibilityChanged flags =>
    refine same ?_
    simp only [handle, host_modify, Host.onChrome]
    split <;> rfl
  | backPressed =>
    simp only [handle, onBack]
    split
    · exact .refl _
    · exact plain_terminate { host := h } .success
  | destroy =>
    exact plain_terminate { host := { h with destroyed := true, exitRequested := true } } .success
  | fieldsEdited fields => exact .of_update rfl
  | loginClicked c =>
    simp only [handle, host_modify, Host.onLoginClicked]
    split_ifs
    · exact .refl _
    split
    · rename_i login hl
      -- the submission and the launch both show that the session opens
      have hopening : login.board.shown.phase = .opening
          ∧ h.login.board.Plain login.board := by
        unfold LoginFlow.submit at hl
        split_ifs at hl
        cases hl
        exact ⟨rfl, .of_update rfl⟩
      have hlaunch : (Host.launch { h with login } c).login
          = login.present fun p =>
            { p with overlay := .forLayout h.layout, phase := .opening } := by
        simp only [Host.launch, Host.dropSlot]
        split <;> rfl
      rw [hlaunch]
      exact hopening.2.trans (.of_update rfl) (.inr hopening.1.symm) (.inr rfl)
    · exact .refl _
  | iconTapped time => exact h.login.plain_tap time
  | _ => exact .refl _

theorem plain_onCommand (h : Host) (c : Command) :
    h.login.board.Plain
      ((onCommand { host := h } c).toOption.getD { host := h }).host.login.board := by
  rcases onCommand_spec { host := h } c with ⟨-, heq⟩ | ⟨-, -, heq⟩ | ⟨overlay, counter, -, heq⟩ <;>
    rw [heq]
  · exact .refl _
  · exact .refl _
  · have hnote : h.login.board.Plain (note { host := h } overlay counter).host.login.board :=
      .of_update rfl
    rcases c.termination? with _ | o
    · exact hnote
    · exact hnote.trans (plain_terminate _ o) (.inl rfl) (.inl rfl)

theorem plain_onOpened (h : Host) (s : Session) (failure : Option Outcome) (c : Credentials) :
    h.login.board.Plain (onOpened { host := h } s failure c).host.login.board := by
  by_cases hp : h.slot.phase = .opening
  · obtain ⟨held, hs⟩ := Slot.eq_opening hp
    rw [onOpened_of_opening (t := { host := h }) hs, ← login_accept { host := h } s c]
    rcases failure with _ | f
    · rcases held with _ | o
      · exact .of_update rfl
      · exact .refl _
    · exact .refl _
  · rw [onOpened_of_not_opening (t := { host := h }) hp]
    exact .refl _

end Turn

namespace HostLoop

variable {l l' : HostLoop} {t : Turn} {step : HostStep}

theorem plain_turn (h : l.turn? step = some (l', t)) :
    l.state.login.board.Plain t.host.login.board := by
  cases turnOf h with
  | event e =>
    obtain ⟨seen, hseen⟩ := l.state.handle_eq e
    rw [hseen]
    exact Turn.plain_handle l.state e
  | command k c => exact Turn.plain_onCommand l.state c
  | outcome k o => exact l.state.login.plain_onOutcome o
  | opened s failure c => exact Turn.plain_onOpened l.state s failure c

/-- Every step publishes what it changes of the session's part of the presentation. -/
theorem plain_take (l : HostLoop) (step : HostStep) :
    l.state.login.board.Plain (l.take step).state.login.board := by
  rcases hturn : l.turn? step with _ | ⟨l', t⟩
  · obtain ⟨platform, workers, heq⟩ := l.state_take hturn
    rw [heq]
    exact .refl _
  · rw [take_turn hturn]
    exact plain_turn hturn

theorem alternates_takeAll {s : HostSetup} {l₀ : HostLoop} (h₀ : s.start = .ok l₀)
    (steps : List HostStep) : (l₀.takeAll steps).state.login.board.Alternates := by
  induction steps using List.reverseRecOn with
  | nil =>
    obtain ⟨layout, rfl⟩ := start_eq h₀
    exact ⟨0, rfl⟩
  | append_singleton steps step ih =>
    rw [takeAll_concat]
    exact ih.plain (plain_take _ step)

end HostLoop

end EngineShell
