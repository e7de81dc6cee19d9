import EngineShell.Proofs.Reports

/-!
# The watchdog of a live session

When the bars of the display change, a live session should bring back immersive fullscreen and
send the engine its table, provided that a bar is showing (`HostLoop.Restores`). The watchdog looks
at the bit of the status bar alone, so a navigation bar that shows by itself stays: this is the one
case in which nothing is restored (`restores_iff`).
-/

namespace EngineShell

/-- Whether the status bar or the navigation bar is showing, by its bit. -/
def ChromeFlags.showsBar (flags : ChromeFlags) : Bool :=
  !flags.contains fullscreen || !flags.contains hideNavigation

namespace Session

variable {s : Session} {guard : Guard}

theorem onChrome_of_fullscreen {flags : ChromeFlags}
    (h : flags.contains ChromeFlags.fullscreen = true) (s : Session) (p : Platform) :
    (s.onChrome p flags).2 = p := by
  unfold onChrome Chrome.onVisibility
  rw [if_pos h]
  split_ifs <;> rfl

/-- A watchdog that sees the status bar asserts fullscreen, and so does the layout pass after it. -/
theorem onChrome_of_live (hs : s.isLive = true) (ho : s.overlay = some guard) {flags : ChromeFlags}
    (h : flags.contains ChromeFlags.fullscreen = false) (p : Platform) :
    (s.onChrome p flags).2 = (p.reassert.reassert.report guard.layout).2 := by
  simp [onChrome, hs, Chrome.onVisibility, h, layoutPass, ho, Platform.reassert]

end Session

namespace HostLoop

variable {lost : Nat} {layout : Layout} {l : HostLoop} {flags : ChromeFlags} {step : HostStep}

/-- The visibility bits of the display have been set by someone else. -/
def displaying (l : HostLoop) (current : ChromeFlags) : HostLoop :=
  l.modifyPlatform fun p => { p with chrome := { p.chrome with flags := current } }

/-- A live session that hears of a change of the bars leaves the display immersive and sends the
engine its whole table if a bar is showing. In any other case nothing is asserted or sent. -/
structure Restores (flags : ChromeFlags) (l l' : HostLoop) : Prop where
  asserted : l.state.isLive = true → flags.showsBar = true →
    l'.state.platform.chrome.flags = ChromeFlags.immersive
  sent : l.state.isLive = true → flags.showsBar = true → ∃ batch : Batch,
    l'.state.platform.engine.reports = l.state.platform.engine.reports ++ [batch.toFlat]
      ∧ batch.records.length = 10 ∧ batch.Describes l.state.layout
  still : l.state.isLive = false ∨ flags.showsBar = false →
    l'.state.platform = l.state.platform

theorem platform_of_chromeEvent (he : l.event? step = some (.chromeVisibilityChanged flags)) :
    (l.take step).state.platform = (l.state.onChrome flags).platform := by
  obtain ⟨l', hturn⟩ := turn?_of_event he
  obtain ⟨seen, hseen⟩ := l.state.handle_eq (.chromeVisibilityChanged flags)
  rw [take_turn hturn, hseen]
  rfl

/-- The session that is live owns an overlay with the layout of the host. -/
theorem Laid.overlay_of_live (hl : l.Laid layout) (hb : l.Balanced lost) {s : Session}
    (hs : l.state.slot = .live s) :
    s.isLive = true ∧ ∃ guard, s.overlay = some guard ∧ guard.layout = layout := by
  have hmem : .up s ∈ l.errands := up_mem_errands.2 (.inl hs)
  have hup := (hb.accounts.fits _ hmem).1
  have htables := (hl.up s hmem).tables_eq hup
  refine ⟨by simp [Session.isLive, hup.live], ?_⟩
  rcases ho : s.overlay with _ | guard
  · simp [Session.tables, ho] at htables
  · exact ⟨guard, rfl, (hl.up s hmem).overlay guard ho⟩

/-- A change of the bars is answered with the layout pass of a live session, unless the status bar
is hidden. -/
theorem platform_of_statusBar (hl : l.Laid layout) (hb : l.Balanced lost) {current : ChromeFlags}
    (he : (l.displaying current).event? step = some (.chromeVisibilityChanged flags)) :
    ((l.displaying current).take step).state.platform
      = if l.state.isLive && !flags.contains ChromeFlags.fullscreen then
          ((l.displaying current).state.platform.reassert.reassert.report layout).2
        else (l.displaying current).state.platform := by
  rw [platform_of_chromeEvent he, Host.onChrome,
    show (l.displaying current).state.slot = l.state.slot from rfl]
  rcases hs : l.state.slot with _ | held | s
  · simp [Host.isLive, hs, Slot.phase]
  · simp [Host.isLive, hs, Slot.phase]
  · obtain ⟨hlive, guard, ho, rfl⟩ := hl.overlay_of_live hb hs
    by_cases hf : flags.contains ChromeFlags.fullscreen = true
    · simp [Session.onChrome_of_fullscreen hf, hf]
    · rw [Bool.not_eq_true] at hf
      simp [Session.onChrome_of_live hlive ho hf, hf, Host.isLive, hs, Slot.phase]

/-- Where nothing happens although a live session has heard of a bar that shows, it is amiss. -/
theorem restores_of_platform_eq {l' : HostLoop} (h : l'.state.platform = l.state.platform) :
    Restores flags l l' ↔ ¬ (l.state.isLive = true ∧ flags.showsBar = true) := by
  constructor
  · rintro hr ⟨hlive, hbar⟩
    obtain ⟨batch, hreports, hlength, -⟩ := hr.sent hlive hbar
    rw [h, List.self_eq_append_right] at hreports
    cases hreports
  · intro hnot
    exact ⟨fun hlive hbar => (hnot ⟨hlive, hbar⟩).elim, fun hlive hbar => (hnot ⟨hlive, hbar⟩).elim,
      fun _ => h⟩

/-- A layout pass of a live session restores the display from any bar that shows. -/
theorem restores_of_report {l' : HostLoop} (hlive : l.state.isLive = true)
    (hbar : flags.showsBar = true) (h : l'.state.platform
      = (l.state.platform.reassert.reassert.report l.state.layout).2) : Restores flags l l' := by
  have hd := Batch.describes_ofLayout l.state.layout
  refine ⟨fun _ _ => by rw [h]; rfl, fun _ _ => ⟨_, by rw [h]; rfl, hd.length_eq, hd⟩, ?_⟩
  rintro (hnot | hnot)
  · simp [hlive] at hnot
  · simp [hbar] at hnot

/-- In every run, whatever bits the display has been set to, a change of the bars is answered as it
should be if and only if it is not the navigation bar alone that shows over a live session. Where
the status bar is hidden nothing is done at all. -/
theorem restores_iff {s : HostSetup} {l₀ : HostLoop} (h₀ : s.start = .ok l₀)
    {steps : List HostStep} {current : ChromeFlags}
    (hl : l = (l₀.takeAll steps).displaying current)
    (he : l.event? step = some (.chromeVisibilityChanged flags)) :
    (Restores flags l (l.take step) ↔ ¬ (l.state.isLive = true
        ∧ flags.contains ChromeFlags.fullscreen = true
        ∧ flags.contains ChromeFlags.hideNavigation = false))
      ∧ (flags.contains ChromeFlags.fullscreen = true →
        (l.take step).state.platform = l.state.platform) := by
  obtain ⟨lost, hb, -⟩ := balanced_takeAll (balanced_start h₀) steps
  have hlaid := laid_takeAll h₀ steps
  have hplatform := platform_of_statusBar hlaid hb (hl ▸ he)
  rw [← hl, show (l₀.takeAll steps).state.isLive = l.state.isLive by rw [hl]; rfl,
    ← show l.state.layout = l₀.state.layout from hl ▸ hlaid.own] at hplatform
  have hbar : flags.showsBar = (!flags.contains ChromeFlags.fullscreen
    || !flags.contains ChromeFlags.hideNavigation) := rfl
  by_cases hpass : l.state.isLive = true ∧ flags.contains ChromeFlags.fullscreen = false
  · obtain ⟨hlive, hf⟩ := hpass
    rw [hlive, hf, Bool.not_false, Bool.and_true, if_pos rfl] at hplatform
    have hshows : flags.showsBar = true := by simp [hbar, hf]
    have hr := restores_of_report hlive hshows hplatform
    exact ⟨iff_of_true hr (by simp [hf]), by simp [hf]⟩
  · have hidle : (l.state.isLive && !flags.contains ChromeFlags.fullscreen) = false := by
      simpa using hpass
    rw [hidle, if_neg Bool.false_ne_true] at hplatform
    refine ⟨(restores_of_platform_eq hplatform).trans (not_congr ?_), fun _ => hplatform⟩
    rw [hbar]
    have hf : l.state.isLive = true → flags.contains ChromeFlags.fullscreen = true := by
      simpa using hpass
    constructor
    · rintro ⟨hlive, hshows⟩
      exact ⟨hlive, hf hlive, by simpa [hf hlive] using hshows⟩
    · rintro ⟨hlive, -, hnav⟩
      exact ⟨hlive, by simp [hnav]⟩

/-- A run with a session that is live. -/
def inSession : List HostStep :=
  [.handle .create, .handle (.loginClicked {}), .enter 0, .answer 0 .accepted, .complete 0,
    .runTask]

/-- The status bar is hidden again from a live session, the navigation bar is not. -/
theorem restores_unless_navigation :
    Restores ChromeFlags.hideNavigation (((of {}).takeAll inSession).displaying 2)
        ((((of {}).takeAll inSession).displaying 2).take (.handle (.chromeVisibilityChanged 2)))
      ∧ ¬ Restores ChromeFlags.fullscreen (((of {}).takeAll inSession).displaying 4)
        ((((of {}).takeAll inSession).displaying 4).take
          (.handle (.chromeVisibilityChanged 4))) := by
  have h₀ : HostSetup.start {} = .ok (of {}) := rfl
  have hlive : ((of {}).takeAll inSession).state.isLive = true := by decide +kernel
  constructor
  · exact (restores_iff h₀ rfl rfl).1.2 fun h => absurd h.2.1 (by decide)
  · exact fun h => (restores_iff h₀ rfl rfl).1.1 h ⟨hlive, by decide, by decide⟩

end HostLoop

end EngineShell
