import EngineShell.Proofs.Overlays
import EngineShell.Proofs.Tallies

/-!
# What a turn tells the engine

The layouts that a turn sends to the engine, each as an array and each counted (`Host.Tells`): those
of a live session on a layout pass, that of a session that goes live, and otherwise none.
-/

namespace EngineShell

def Layout.flat (l : Layout) : List Int :=
  (Batch.ofLayout l).toFlat

def Counter.ofGeometry : Counter → Bool
  | .geometry => true
  | _ => false

namespace Metrics

theorem geometry_record (m : Metrics) (counter : Counter) :
    (m.record counter).geometry = m.geometry + counter.ofGeometry.toNat := by
  cases counter <;> rfl

theorem geometry_add (a b : Metrics) : (a + b).geometry = a.geometry + b.geometry := rfl

end Metrics

theorem TaskQueue.geometry_postAll {τ : Type} (q : TaskQueue τ) (ts : List τ) :
    (q.postAll ts).metrics.geometry = q.metrics.geometry := by
  induction ts generalizing q with
  | nil => rfl
  | cons t ts ih =>
    refine (ih (q.post t)).trans ?_
    rw [post]
    split_ifs <;> rfl

namespace LoginFlow

theorem geometry_tap (l : LoginFlow) (now : Nat) :
    (l.tap now).2.metrics.geometry = l.metrics.geometry := by
  unfold tap
  dsimp only
  split
  · rfl
  · rw [metrics_showFatal]
    rfl

theorem geometry_onOutcome (l : LoginFlow) (o : Outcome) :
    (l.onOutcome o).metrics.geometry = l.metrics.geometry := by
  unfold onOutcome
  dsimp only
  split_ifs
  · rfl
  · split
    · rfl
    · rfl
    · rw [metrics_showFatal]
      rfl

end LoginFlow

/-- Between two states of the platform the engine was told some layouts, and each was counted. -/
structure Platform.Tells (told : List Layout) (p p' : Platform) : Prop where
  reports : p'.engine.reports = p.engine.reports ++ told.map Layout.flat
  geometry : p'.metrics.geometry = p.metrics.geometry + told.length

namespace Platform.Tells

variable {told told' : List Layout} {p p' p'' : Platform}

theorem silent (he : p'.engine.reports = p.engine.reports)
    (hm : p'.metrics.geometry = p.metrics.geometry) : p.Tells [] p' :=
  ⟨by simpa using he, hm⟩

theorem trans (h : p.Tells told p') (h' : p'.Tells told' p'') : p.Tells (told ++ told') p'' where
  reports := by rw [h'.reports, h.reports, List.map_append, List.append_assoc]
  geometry := by rw [h'.geometry, h.geometry, List.length_append, Nat.add_assoc]

theorem teardown (p : Platform) (s : Session) : p.Tells [] (s.teardown p).2.2 :=
  silent (by rw [s.engine_teardown]) (by rw [s.metrics_teardown])

theorem conclude (p : Platform) (s : Session) (a : Answer) :
    p.Tells [] (s.conclude p a).platform := by
  refine silent (by rw [s.engine_conclude]) ?_
  unfold Session.conclude
  split
  · exact congrArg Metrics.geometry (s.metrics_teardown p)
  · unfold Session.goLive
    dsimp only
    split
    · rfl
    · refine Eq.trans ?_ (p.metrics.geometry_record .opened)
      exact congrArg Metrics.geometry (Session.metrics_teardown _ _)

theorem apply (p : Platform) (k : Nat) (c : Command) : p.Tells [] (p.apply k c).2 := by
  unfold Platform.apply Sink.apply
  split_ifs <;> exact silent rfl rfl

end Platform.Tells

namespace Session

/-- The layout of a session's overlay, if it is up. -/
def tables (s : Session) : List Layout :=
  (s.overlay.map Guard.layout).toList

theorem tells_layoutPass (s : Session) (p : Platform) : p.Tells s.tables (s.layoutPass p).2 := by
  unfold layoutPass tables
  rcases s.overlay with _ | guard
  · exact .silent rfl rfl
  · exact ⟨rfl, rfl⟩

def told (s : Session) (p : Platform) : HostEvent → List Layout
  | .layoutSettled => s.tables
  | .chromeVisibilityChanged flags =>
    if s.isLive && (p.chrome.onVisibility flags).1 then s.tables else []
  | _ => []

theorem tells_onChrome (s : Session) (p : Platform) (flags : ChromeFlags) :
    p.Tells (s.told p (.chromeVisibilityChanged flags)) (s.onChrome p flags).2 := by
  unfold onChrome told
  by_cases hs : s.isLive
  · rcases hv : p.chrome.onVisibility flags with ⟨_ | _, chrome⟩
    · simpa [hs, hv] using .silent rfl rfl
    · have hchrome : p.Tells [] { p with chrome } := .silent rfl rfl
      simpa [hs, hv] using hchrome.trans (s.tells_layoutPass { p with chrome })
  · simpa [hs] using .silent rfl rfl

end Session

/-- A turn tells the engine some layouts, counts them, and keeps the layout of the host. -/
structure Host.Tells (told : List Layout) (h h' : Host) : Prop where
  platform : h.platform.Tells told h'.platform
  geometry : h'.metrics.geometry + h'.login.metrics.geometry
    = h.metrics.geometry + h.login.metrics.geometry
  layout : h'.layout = h.layout

namespace Host

/-- What a host tells the engine on an event. -/
def told (h : Host) (e : HostEvent) : List Layout :=
  match h.slot with
  | .live s => s.told h.platform e
  | _ => []

theorem told_eq_nil (h : Host) {e : HostEvent} (hl : e ≠ .layoutSettled)
    (hc : ∀ flags, e ≠ .chromeVisibilityChanged flags) : h.told e = [] := by
  unfold told Session.told
  split
  · split
    · exact (hl rfl).elim
    · exact (hc _ rfl).elim
    · rfl
  · rfl

end Host

namespace Host.Tells

variable {told told' : List Layout} {h h' h'' : Host}

theorem silent (hp : h'.platform = h.platform) (hm : h'.metrics.geometry = h.metrics.geometry)
    (hl : h'.login.metrics.geometry = h.login.metrics.geometry)
    (hlayout : h'.layout = h.layout) : h.Tells [] h' :=
  ⟨.silent (by rw [hp]) (by rw [hp]), by rw [hm, hl], hlayout⟩

theorem refl (h : Host) : h.Tells [] h :=
  silent rfl rfl rfl rfl

theorem of_platform {p : Platform} (hp : h.platform.Tells told p) :
    h.Tells told { h with platform := p } :=
  ⟨hp, rfl, rfl⟩

theorem trans (t : h.Tells told h') (t' : h'.Tells told' h'') : h.Tells (told ++ told') h'' :=
  ⟨t.platform.trans t'.platform, t'.geometry.trans t.geometry, t'.layout.trans t.layout⟩

theorem persist (h : Host) (c : Credentials) : h.Tells [] (h.persist c) := by
  unfold Host.persist
  split
  · exact silent rfl rfl rfl rfl
  · exact refl h

theorem onDisplayModeLost (h : Host) : h.Tells [] h.onDisplayModeLost := by
  unfold Host.onDisplayModeLost Session.reassert
  split
  · split_ifs
    · exact of_platform (.silent rfl rfl)
    · exact of_platform (.silent rfl rfl)
  · exact refl h

theorem onLoginClicked (h : Host) (c : Credentials) : h.Tells [] (h.onLoginClicked c) := by
  unfold Host.onLoginClicked
  split_ifs
  · exact refl h
  · split
    · rename_i login hl
      have hsubmit : h.Tells [] { h with login } :=
        silent rfl rfl (congrArg Metrics.geometry (LoginFlow.metrics_submit hl)) rfl
      have hsink : h.platform.Tells [] (h.platform.addSink {}) := .silent rfl rfl
      simp only [launch, dropSlot]
      split
      · exact hsubmit.trans ⟨hsink.trans (.teardown _ _), rfl, rfl⟩
      · exact hsubmit.trans ⟨hsink, rfl, rfl⟩
    · exact refl h

end Host.Tells

namespace Turn

open Host

theorem tells_finish (t : Turn) (s : Session) (o : Outcome) :
    t.host.Tells [] (t.finish s o).host :=
  .of_platform (.teardown _ s)

theorem tells_terminate (t : Turn) (o : Outcome) : t.host.Tells [] (t.terminate o).host := by
  unfold terminate
  split
  · exact .refl _
  · exact .silent rfl rfl rfl rfl
  · rename_i s _
    set t' := t.modify fun h => { h with slot := .idle } with ht'
    have hidle : t.host.Tells [] t'.host := .silent rfl rfl rfl rfl
    exact (hidle.trans (t'.tells_finish s o)).trans (.silent rfl rfl rfl rfl)

theorem tells_handle_quiet (h : Host) {e : HostEvent} (hl : e ≠ .layoutSettled)
    (hc : ∀ flags, e ≠ .chromeVisibilityChanged flags) :
    h.Tells [] (Turn.handle { host := h } e).host := by
  cases e with
  | layoutSettled => exact (hl rfl).elim
  | chromeVisibilityChanged flags => exact (hc flags rfl).elim
  | create =>
    simp only [handle, host_modify, onCreate]
    split_ifs
    · exact .refl h
    · exact .silent rfl rfl (congrArg Metrics.geometry (h.login.metrics_start _ _)) rfl
  | resume => exact .onDisplayModeLost h
  | windowFocusChanged focused =>
    cases focused
    · exact .refl h
    · exact .onDisplayModeLost h
  | backPressed =>
    simp only [handle, onBack]
    split
    · exact .silent rfl rfl rfl rfl
    · exact tells_terminate { host := h } .success
  | destroy =>
    have hleft : h.Tells [] { h with destroyed := true, exitRequested := true } :=
      .silent rfl rfl rfl rfl
    exact hleft.trans (tells_terminate { host := _ } .success)
  | loginClicked c => exact .onLoginClicked h c
  | iconTapped time => exact .silent rfl rfl (h.login.geometry_tap time) rfl
  | _ => exact .silent rfl rfl rfl rfl

theorem tells_handle (h : Host) (e : HostEvent) :
    h.Tells (h.told e) (Turn.handle { host := h } e).host := by
  by_cases hl : e = .layoutSettled
  · subst hl
    rcases hs : h.slot with _ | held | s <;>
      simp only [handle, host_modify, onLayoutSettled, Host.told, hs]
    · exact .refl h
    · exact .refl h
    · exact hs ▸ .of_platform (s.tells_layoutPass h.platform)
  by_cases hc : ∃ flags, e = .chromeVisibilityChanged flags
  · obtain ⟨flags, rfl⟩ := hc
    rcases hs : h.slot with _ | held | s <;>
      simp only [handle, host_modify, Host.onChrome, Host.told, hs]
    · exact .refl h
    · exact .refl h
    · exact hs ▸ .of_platform (s.tells_onChrome h.platform flags)
  · replace hc : ∀ flags, e ≠ .chromeVisibilityChanged flags := fun flags heq => hc ⟨flags, heq⟩
    rw [h.told_eq_nil hl hc]
    exact tells_handle_quiet h hl hc

theorem tells_onCommand (h : Host) (c : Command) :
    h.Tells [] ((onCommand { host := h } c).toOption.getD { host := h }).host := by
  have count : ∀ (f : Presentation → Presentation) (counter : Counter),
      counter.ofGeometry = false → h.Tells [] ((h.present f).count counter) := fun f counter hc =>
    .silent rfl ((h.metrics.geometry_record counter).trans (by simp [hc])) rfl rfl
  unfold onCommand
  split
  · exact .silent rfl rfl rfl rfl
  split
  · exact .refl h
  dsimp only
  split
  · exact .refl h
  split
  case h_5 => exact (count _ .applied rfl).trans (tells_terminate { host := _ } _)
  all_goals exact count _ _ rfl

theorem tells_accept (h : Host) (s : Session) (c : Credentials) :
    h.Tells [] (accept { host := h } s c).host := by
  have hidle : h.Tells [] { h with slot := .idle } := .silent rfl rfl rfl rfl
  unfold accept
  split_ifs
  · exact hidle.trans (.persist _ c)
  · exact hidle

/-- A completion tells the engine the layout of the session that it brings live. -/
theorem tells_onOpened (h : Host) (s : Session) (failure : Option Outcome) (c : Credentials) :
    h.Tells [] (onOpened { host := h } s failure c).host
        ∧ h.Lowers (onOpened { host := h } s failure c).host
      ∨ failure = none ∧ h.slot = .opening none
        ∧ (onOpened { host := h } s failure c).host.slot = .live s
        ∧ h.Tells s.tables (onOpened { host := h } s failure c).host := by
  by_cases hp : h.slot.phase = .opening
  · obtain ⟨held, hs⟩ := Slot.eq_opening hp
    have hidle := tells_accept h s c
    have hlow := lowers_accept h s c
    rw [onOpened_of_opening (t := { host := h }) hs]
    rcases failure with _ | f
    · rcases held with _ | o
      · exact .inr ⟨rfl, hs, rfl, hidle.trans ⟨s.tells_layoutPass _, rfl, rfl⟩⟩
      · exact .inl ⟨hidle.trans (tells_finish _ s o), hlow.trans (lowers_finish _ s o)⟩
    · exact .inl ⟨hidle.trans (.of_platform (.teardown _ s)), hlow.trans (.teardown _ s)⟩
  · rw [onOpened_of_not_opening (t := { host := h }) hp]
    exact .inl ⟨.of_platform (.teardown _ s), .teardown h s⟩

end Turn

end EngineShell
