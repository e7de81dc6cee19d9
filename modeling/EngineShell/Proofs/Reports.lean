import EngineShell.Proofs.HitRects
import EngineShell.Proofs.Telling

/-!
# The engine's table is the layout of the session

The engine is told the table of a layout in two ways: by a session that goes live, and by one that
is live when the layout has settled, or when the watchdog has asserted fullscreen again
(`HostLoop.isReporting`). Every session of a host has the layout of the host (`HostLoop.Laid`), so
each array of a run is known (`informed_takeAll`).
-/

namespace EngineShell

/-- The engine's table is the one that was sent last, if each that was sent can be read. -/
theorem EngineLink.table?_map_toFlat {e : EngineLink}
    (h : ∀ data ∈ e.reports, ∃ b, Batch.ofFlat data = .ok b) :
    e.table?.map Batch.toFlat = e.reports.getLast? := by
  rcases List.eq_nil_or_concat e.reports with hr | ⟨before, data, hr⟩
  · simp [table?, hr]
  · obtain ⟨b, hb⟩ := h data (by simp [hr])
    simp [table?, hr, hb, Except.toOption, Batch.toFlat_ofFlat hb]

theorem Guard.layout_attach {w w' : Windows} {params : WindowParams} {layout : Layout}
    {guard : Guard} (h : Guard.attach w params layout = (.ok guard, w')) :
    guard.layout = layout := by
  unfold attach at h
  rcases hadd : w.add params with ⟨e | id, windows⟩
  · simp [hadd, Except.map] at h
  · simp only [hadd, Except.map, Prod.mk.injEq, Except.ok.injEq] at h
    rw [← h.1]

/-- A session has a layout, and so has its overlay. -/
structure Session.Laid (layout : Layout) (s : Session) : Prop where
  own : s.layout = layout
  overlay : ∀ guard, s.overlay = some guard → guard.layout = layout

namespace Session.Laid

variable {layout : Layout} {s : Session}

theorem tables_eq (h : s.Laid layout) (hs : s.IsUp) : s.tables = [layout] := by
  obtain ⟨id, hid⟩ := hs.covered
  rcases ho : s.overlay with _ | guard
  · simp [windows, ho] at hid
  · simp [tables, ho, h.overlay guard ho]

theorem fail (h : s.Laid layout) (p : Platform) (o : Outcome) :
    (s.fail p o).session.Laid layout := by
  by_cases hs : s.stage = .tornDown
  · simpa [Session.fail, finish, teardown, isTornDown, hs] using ⟨h.own, h.overlay⟩
  · rw [Session.fail, finish, teardown_eq p hs]
    exact ⟨h.own, by simp⟩

theorem conclude (h : s.Laid layout) (p : Platform) (a : Answer) :
    (s.conclude p a).session.Laid layout := by
  unfold Session.conclude
  split
  · exact h.fail p _
  · unfold goLive
    dsimp only
    split
    · rename_i guard windows hattach
      refine ⟨h.own, fun guard' hg => ?_⟩
      obtain rfl := Option.some.inj hg
      exact (Guard.layout_attach hattach).trans h.own
    · exact fail (s := { s with accepted := true }) ⟨h.own, h.overlay⟩ _ _

end Session.Laid

theorem Host.isLive_iff {h : Host} : h.isLive = true ↔ ∃ s, h.slot = .live s := by
  rcases hs : h.slot with _ | held | s <;> simp [isLive, hs, Slot.phase]

theorem Host.Lowers.isLive {h h' : Host} (l : h.Lowers h') (hlive : h'.isLive = true) :
    h.isLive = true := by
  obtain ⟨s, hs⟩ := Host.isLive_iff.1 hlive
  exact Host.isLive_iff.2 ⟨s, l.live s hs⟩

namespace HostLoop

variable {lost : Nat} {layout : Layout} {l l' : HostLoop} {t : Turn} {step : HostStep}

/-- All sessions of a host have the layout of the host. -/
structure Laid (layout : Layout) (l : HostLoop) : Prop where
  own : l.state.layout = layout
  workers : ∀ w ∈ l.state.workers, w.session.Laid layout
  up : ∀ s, .up s ∈ l.errands → s.Laid layout

/-- A step that sends the engine its table: one that brings a session live, or that finds one live
and is a layout pass. -/
def isReporting (l : HostLoop) (step : HostStep) : Bool :=
  !l.state.isLive && (l.take step).state.isLive || l.state.isLive && match l.event? step with
    | some .layoutSettled => true
    | some (.chromeVisibilityChanged flags) => (l.state.platform.chrome.onVisibility flags).1
    | _ => false

theorem event?_offThread (h : l.turn? step = none) : l.event? step = none := by
  by_contra he
  obtain ⟨e, he⟩ := Option.ne_none_iff_exists'.1 he
  obtain ⟨l', hturn⟩ := turn?_of_event he
  simp [h] at hturn

theorem isReporting_of_not_event (he : l.event? step = none)
    (hs : (l.take step).state.isLive = true → l.state.isLive = true) :
    l.isReporting step = false := by
  rw [isReporting, he]
  cases hl : l.state.isLive
  · simpa [hl] using hs
  · simp

/-- What an event tells the engine is the layout, if the step is one that tells it anything. -/
theorem Laid.told_eq (hl : l.Laid layout) (hb : l.Balanced lost) {e : HostEvent}
    (he : l.event? step = some e)
    (hs : (l.take step).state.isLive = true → l.state.isLive = true) :
    l.state.told e = if l.isReporting step then [layout] else [] := by
  rw [isReporting, he]
  by_cases hlive : ∃ s, l.state.slot = .live s
  · obtain ⟨s, hslot⟩ := hlive
    have hmem : .up s ∈ l.errands := up_mem_errands.2 (.inl hslot)
    have hup : s.IsUp := (hb.accounts.fits _ hmem).1
    have hisLive : s.isLive = true := by simp [Session.isLive, hup.live]
    rw [Host.told, hslot, Host.isLive_iff.2 ⟨s, hslot⟩]
    have htables := (hl.up s hmem).tables_eq hup
    cases e <;> simp [Session.told, htables, hisLive]
  · have hnot : l.state.isLive = false := by
      rw [← Bool.not_eq_true, Host.isLive_iff]
      exact hlive
    have htold : l.state.told e = [] := by
      unfold Host.told
      split
      · rename_i s hslot
        exact (hlive ⟨s, hslot⟩).elim
      · rfl
    have hnot' : (l.take step).state.isLive = false := by
      rw [← Bool.not_eq_true]
      exact fun h => by simp [hs h] at hnot
    simp [htold, hnot, hnot']

/-- A turn tells the engine what its event does, or the layout of the session that it brings
live, or nothing. -/
theorem tells_turn (h : l.turn? step = some (l', t)) :
    (∃ e, l.event? step = some e ∧ l.state.Tells (l.state.told e) t.host ∧ l.state.Lowers t.host)
      ∨ l.event? step = none ∧ l.state.Tells [] t.host ∧ l.state.Lowers t.host
      ∨ ∃ s c, .opened s none c ∈ l.queue.tasks ∧ l.state.slot = .opening none
        ∧ t.host.slot = .live s ∧ l.state.Tells s.tables t.host := by
  cases turnOf h with
  | event e he =>
    obtain ⟨seen, hseen⟩ := l.state.handle_eq e
    have ht := Turn.tells_handle l.state e
    rw [hseen]
    exact .inl ⟨e, he, ⟨ht.platform, ht.geometry, ht.layout⟩,
      (Turn.lowers_handle l.state e).trans (.congr rfl rfl (.inl rfl))⟩
  | command k c rest hq =>
    exact .inr (.inl ⟨by simp [event?, task?, hq], Turn.tells_onCommand l.state c,
      Turn.lowers_onCommand l.state c⟩)
  | outcome k o rest hq =>
    exact .inr (.inl ⟨by simp [event?, task?, hq],
      .silent rfl rfl (l.state.login.geometry_onOutcome o) rfl, .congr rfl rfl (.inl rfl)⟩)
  | opened s failure c rest hq =>
    rcases Turn.tells_onOpened l.state s failure c with ⟨ht, hl⟩ | ⟨rfl, hs, hs', ht⟩
    · exact .inr (.inl ⟨by simp [event?, task?, hq], ht, hl⟩)
    · exact .inr (.inr ⟨s, c, by simp [hq], hs, hs', ht⟩)

theorem tells_offThread (h : l.turn? step = none) :
    l.state.Tells [] (l.take step).state := by
  cases step with
  | handle e => simp [turn?] at h
  | runTask =>
    have hq : l.queue.tasks = [] := by simpa [turn?] using h
    rw [HostLoop.take, runTask_nil hq]
    exact .refl _
  | command k c => exact .of_platform (.apply _ k c)
  | enter i =>
    rcases l.enter_cases i with heq | ⟨w, -, -, heq⟩ <;> rw [HostLoop.take, heq]
    · exact .refl _
    · exact ⟨.silent rfl rfl, rfl, rfl⟩
  | answer i a =>
    rcases l.answer_cases i a with heq | ⟨w, o, -, -, rfl, heq⟩ <;> rw [HostLoop.take, heq]
    · exact .refl _
    · exact ⟨.conclude _ w.session a, rfl, rfl⟩
  | deliver i =>
    rcases l.deliver_cases i with heq | ⟨w, failure, o, -, -, heq⟩ <;> rw [HostLoop.take, heq]
    · exact .refl _
    · exact ⟨.silent rfl rfl, rfl, rfl⟩
  | complete i =>
    rcases l.complete_cases i with heq | ⟨w, failure, -, -, heq⟩ <;> rw [HostLoop.take, heq]
    · exact .refl _
    · exact ⟨.silent rfl rfl, rfl, rfl⟩
  | _ => exact ⟨.silent rfl rfl, rfl, rfl⟩

theorem Laid.tells_take (hl : l.Laid layout) (hb : l.Balanced lost) (step : HostStep) :
    l.state.Tells (if l.isReporting step then [layout] else []) (l.take step).state := by
  rcases hturn : l.turn? step with _ | ⟨l', t⟩
  · obtain ⟨platform, workers, heq⟩ := l.state_take hturn
    rw [isReporting_of_not_event (event?_offThread hturn) (by rw [heq]; exact id)]
    exact tells_offThread hturn
  have hland : (l.take step).state = t.host := by rw [take_turn hturn, land]
  rcases tells_turn hturn with ⟨e, he, ht, hlow⟩ | ⟨he, ht, hlow⟩ | ⟨s, c, hmem, hs, hs', ht⟩
  · rw [← hl.told_eq hb he (hland ▸ hlow.isLive), hland]
    exact ht
  · rw [isReporting_of_not_event he (hland ▸ hlow.isLive), hland]
    exact ht
  · have hup : .up s ∈ l.errands := up_mem_errands.2 (.inr (.inr ⟨c, hmem⟩))
    have hlive : l.isReporting step = true := by
      simp [isReporting, hland, Host.isLive, hs, hs', Slot.phase]
    rw [hlive, if_pos rfl, hland, ← (hl.up s hup).tables_eq (hb.accounts.fits _ hup).1]
    exact ht

/-- Every worker works on a session that some worker had before. -/
theorem sessions_offThread (h : l.turn? step = none) (hs : ∀ i a, step ≠ .answer i a) {w : Worker}
    (hw : w ∈ (l.take step).state.workers) : ∃ w' ∈ l.state.workers, w.session = w'.session := by
  have replace : ∀ {i : Nat} {v v' : Worker}, l.state.workers[i]? = some v →
      w ∈ l.state.workers.set i v' → v'.session = v.session →
      ∃ w' ∈ l.state.workers, w.session = w'.session := by
    intro i v v' hv hw hsession
    rcases List.mem_or_eq_of_mem_set hw with hw | rfl
    · exact ⟨w, hw, rfl⟩
    · exact ⟨v, List.mem_of_getElem? hv, hsession⟩
  cases step with
  | handle e => simp [turn?] at h
  | runTask =>
    have hq : l.queue.tasks = [] := by simpa [turn?] using h
    rw [HostLoop.take, runTask_nil hq] at hw
    exact ⟨w, hw, rfl⟩
  | enter i =>
    rcases l.enter_cases i with heq | ⟨v, hv, -, heq⟩ <;> rw [HostLoop.take, heq] at hw
    · exact ⟨w, hw, rfl⟩
    · exact replace hv hw rfl
  | answer i a => exact (hs i a rfl).elim
  | deliver i =>
    rcases l.deliver_cases i with heq | ⟨v, failure, o, hv, -, heq⟩ <;>
      rw [HostLoop.take, heq] at hw
    · exact ⟨w, hw, rfl⟩
    · exact replace hv hw rfl
  | complete i =>
    rcases l.complete_cases i with heq | ⟨v, failure, hv, -, heq⟩ <;> rw [HostLoop.take, heq] at hw
    · exact ⟨w, hw, rfl⟩
    · exact ⟨w, List.mem_of_mem_eraseIdx hw, rfl⟩
  | _ => exact ⟨w, hw, rfl⟩

theorem Laid.turn (hl : l.Laid layout) (hb : l.Balanced lost) (h : l.turn? step = some (l', t)) :
    (l.take step).Laid layout where
  own := (hl.tells_take hb step).layout.trans hl.own
  workers w hw := by
    have hw' : w ∈ t.host.workers := by rwa [take_turn h] at hw
    rcases hb.turn_cases h with ⟨c, -, -, hlaunch, -⟩ | ⟨-, ht⟩
    · rw [hlaunch.workers, List.mem_append, List.mem_singleton] at hw'
      rcases hw' with hw' | rfl
      · exact hl.workers w hw'
      · exact ⟨hl.own, by simp [Host.newSession]⟩
    · exact hl.workers w (ht.workers ▸ hw')
  up s hs := hl.up s (up_of_turn hb h hs)

theorem Laid.answer (hl : l.Laid layout) (hb : l.Balanced lost) (i : Nat) (a : Answer) :
    (l.answer i a).Laid layout := by
  have hworkers : ∀ w ∈ (l.answer i a).state.workers, w.session.Laid layout := by
    intro w hw
    rcases l.answer_cases i a with heq | ⟨v, o, hv, -, rfl, heq⟩ <;> rw [heq] at hw
    · exact hl.workers w hw
    · rcases List.mem_or_eq_of_mem_set hw with hw | rfl
      · exact hl.workers w hw
      · exact (hl.workers v (List.mem_of_getElem? hv)).conclude _ a
  refine ⟨(hl.tells_take hb (.answer i a)).layout.trans hl.own, hworkers, fun s hs => ?_⟩
  rcases answer_spec hb i a with ⟨heq, -⟩ | ⟨w, w', ha⟩
  · exact hl.up s (heq ▸ hs)
  · rcases up_of_answer ha hs with hs | rfl
    · exact hl.up s hs
    · have hi := (List.getElem?_eq_some_iff.1 ha.before).1
      exact hworkers w' (ha.workers ▸ List.mem_set hi w')

theorem Laid.take (hl : l.Laid layout) (hb : l.Balanced lost) (step : HostStep) :
    (l.take step).Laid layout := by
  rcases hturn : l.turn? step with _ | ⟨l', t⟩
  · by_cases hstep : ∃ i a, step = .answer i a
    · obtain ⟨i, a, rfl⟩ := hstep
      exact hl.answer hb i a
    replace hstep : ∀ i a, step ≠ .answer i a := fun i a h => hstep ⟨i, a, h⟩
    refine ⟨(hl.tells_take hb step).layout.trans hl.own, fun w hw => ?_, fun s hs => ?_⟩
    · obtain ⟨w', hw', heq⟩ := sessions_offThread hturn hstep hw
      exact heq ▸ hl.workers w' hw'
    · exact hl.up s (errands_offThread hb.running hturn hstep ▸ hs)
  · exact hl.turn hb hturn

theorem geometry_queue_take (l : HostLoop) (step : HostStep) :
    (l.take step).queue.metrics.geometry = l.queue.metrics.geometry := by
  cases step with
  | handle e => exact TaskQueue.geometry_postAll _ _
  | post e => exact l.queue.geometry_postAll [.event e]
  | runTask =>
    rcases hq : l.queue.tasks with _ | ⟨task, rest⟩
    · rw [HostLoop.take, runTask_nil hq]
    · rw [HostLoop.take, runTask_cons hq]
      exact TaskQueue.geometry_postAll _ _
  | command k c => exact TaskQueue.geometry_postAll _ _
  | enter i => rcases l.enter_cases i with heq | ⟨w, -, -, heq⟩ <;> rw [HostLoop.take, heq]; rfl
  | answer i a =>
    rcases l.answer_cases i a with heq | ⟨w, o, -, -, -, heq⟩ <;> rw [HostLoop.take, heq]
    rfl
  | deliver i =>
    rcases l.deliver_cases i with heq | ⟨w, failure, o, -, -, heq⟩ <;> rw [HostLoop.take, heq]
    exact l.queue.geometry_postAll [.outcome _ o]
  | complete i =>
    rcases l.complete_cases i with heq | ⟨w, failure, -, -, heq⟩ <;> rw [HostLoop.take, heq]
    exact l.queue.geometry_postAll [.opened _ failure _]
  | _ => rfl

theorem geometry_metrics (l : HostLoop) : l.metrics.geometry = l.state.metrics.geometry
    + l.state.login.metrics.geometry + l.state.platform.metrics.geometry
    + l.queue.metrics.geometry := by
  simp only [metrics, Metrics.geometry_add]

theorem layout_start {s : HostSetup} (h : s.start = .ok l) (hlayout : s.layout = some layout) :
    l.state.layout = layout := by
  unfold HostSetup.start at h
  rcases hl : Layout.standard s.machine.size.width s.machine.size.height with e | standard
  · simp [hl, bind, Except.bind] at h
  · simp only [hl, bind, Except.bind, pure, Except.pure, Except.ok.injEq] at h
    simp [← h, hlayout]

/-- The engine knows the layout of the host: each array that it was sent can be read and has the
ten controls of the table, each with its rectangle in the layout. The arrays are sent by the steps
that report and by no others, the engine works with the last one, and all are counted. -/
structure Informed (layout : Layout) (l : HostLoop) : Prop where
  described : ∀ data ∈ l.state.platform.engine.reports, ∃ b, Batch.ofFlat data = .ok b
    ∧ b.records.length = 10 ∧ b.Describes layout
  sent : ∀ step, (l.take step).state.platform.engine.reports
    = l.state.platform.engine.reports ++ if l.isReporting step then [layout.flat] else []
  last : l.state.platform.engine.table?.map Batch.toFlat
    = l.state.platform.engine.reports.getLast?
  counted : l.metrics.geometry = l.state.platform.engine.reports.length

/-- Everything the engine has been told is the layout of the host, and is counted. -/
structure Told (layout : Layout) (l : HostLoop) : Prop where
  reports : ∀ data ∈ l.state.platform.engine.reports, data = layout.flat
  counted : l.metrics.geometry = l.state.platform.engine.reports.length

theorem Told.take (ht : Told layout l) (hl : l.Laid layout) (hb : l.Balanced lost)
    (step : HostStep) : Told layout (l.take step) := by
  obtain ⟨⟨hreports, hgeometry⟩, hrest, -⟩ := hl.tells_take hb step
  refine ⟨fun data hdata => ?_, ?_⟩
  · rw [hreports, List.mem_append] at hdata
    rcases hdata with hdata | hdata
    · exact ht.reports data hdata
    · obtain ⟨layout', hmem, rfl⟩ := List.mem_map.1 hdata
      split_ifs at hmem
      · rw [List.mem_singleton.1 hmem]
      · cases hmem
  · rw [hreports, List.length_append, List.length_map, ← ht.counted, geometry_metrics,
      geometry_metrics, geometry_queue_take, hrest, hgeometry]
    omega

theorem Told.informed (ht : Told layout l) (hl : l.Laid layout) (hb : l.Balanced lost) :
    Informed layout l where
  described data hdata := by
    have hd := Batch.describes_ofLayout layout
    exact ht.reports data hdata ▸ ⟨_, Batch.ofFlat_toFlat _, hd.length_eq, hd⟩
  sent step := by
    rw [(hl.tells_take hb step).platform.reports]
    split_ifs <;> rfl
  last := EngineLink.table?_map_toFlat fun data hdata =>
    ht.reports data hdata ▸ ⟨_, Batch.ofFlat_toFlat _⟩
  counted := ht.counted

/-- In every run all sessions have the layout that the host started with. -/
theorem laid_takeAll {s : HostSetup} {l₀ : HostLoop} (h₀ : s.start = .ok l₀)
    (steps : List HostStep) : (l₀.takeAll steps).Laid l₀.state.layout := by
  induction steps using List.reverseRecOn with
  | nil =>
    obtain ⟨layout, rfl⟩ := start_eq h₀
    exact ⟨rfl, by simp, by simp [up_mem_errands]⟩
  | append_singleton steps step ih =>
    obtain ⟨lost, hb, -⟩ := balanced_takeAll (balanced_start h₀) steps
    rw [takeAll_concat]
    exact ih.take hb step

/-- In every run the engine knows the layout of the host. A control of the layout has the
rectangle that was put down for it last, and neither the order of the controls nor the widgets of
the layout make a difference to the engine. -/
theorem informed_takeAll {s : HostSetup} {l₀ : HostLoop} (h₀ : s.start = .ok l₀)
    (steps : List HostStep) :
    l₀.state.platform.engine.reports = []
      ∧ Informed l₀.state.layout (l₀.takeAll steps)
      ∧ (∀ layout, s.layout = some layout → l₀.state.layout = layout)
      ∧ (∀ cs ws c, (Layout.ofLists cs ws).hitRect? c
        = (cs.reverse.find? fun p => p.1 == c).map (·.2))
      ∧ ∀ cs cs' ws ws', cs.Perm cs' → (cs.map (·.1)).Nodup →
        (Layout.ofLists cs ws).flat = (Layout.ofLists cs' ws').flat := by
  have hinit : l₀.state.platform.engine.reports = [] ∧ Told l₀.state.layout l₀
      ∧ l₀.Laid l₀.state.layout := by
    obtain ⟨layout, rfl⟩ := start_eq h₀
    exact ⟨rfl, ⟨by simp, rfl⟩, rfl, by simp, by simp [up_mem_errands]⟩
  obtain ⟨hempty, htold, hlaid⟩ := hinit
  have hrun : ∀ steps, ∃ lost, (l₀.takeAll steps).Balanced lost := fun steps =>
    (balanced_takeAll (balanced_start h₀) steps).imp fun _ h => h.1
  have hkept : Told l₀.state.layout (l₀.takeAll steps)
      ∧ (l₀.takeAll steps).Laid l₀.state.layout := by
    induction steps using List.reverseRecOn with
    | nil => exact ⟨htold, hlaid⟩
    | append_singleton steps step ih =>
      obtain ⟨lost, hb⟩ := hrun steps
      rw [takeAll_concat]
      exact ⟨ih.1.take ih.2 hb step, ih.2.take hb step⟩
  obtain ⟨lost, hb⟩ := hrun steps
  refine ⟨hempty, hkept.1.informed hkept.2 hb, fun layout => layout_start h₀,
    Layout.hitRect_ofLists, fun cs cs' ws ws' hp hn => ?_⟩
  exact congrArg Batch.toFlat (Batch.ofLayout_congr (Layout.hitRect_ofLists_perm hp hn ws ws'))

/-- A set-up whose layout has two controls, one of them put down twice. -/
def sparse : HostSetup :=
  { layout := some (.ofLists [(.cursor, ⟨0, 0, 4, 4⟩), (.rotate, ⟨9, 0, 12, 3⟩),
      (.cursor, ⟨0, 8, 4, 12⟩)] [.imageProgress]) }

/-- A run with a layout pass when the session goes live and three while it is live. The bars that
are as they should be, and a layout that settles without a session, bring about none. -/
def settling : List HostStep :=
  [.handle .create, .handle (.loginClicked {}), .handle .layoutSettled, .enter 0,
    .answer 0 .accepted, .complete 0, .runTask, .handle .layoutSettled, .post .layoutSettled,
    .runTask, .handle (.chromeVisibilityChanged 0),
    .handle (.chromeVisibilityChanged ChromeFlags.immersive), .handle .backPressed,
    .handle .layoutSettled]

theorem informed_settling : sparse.start = .ok (of sparse)
    ∧ ((of sparse).takeAll settling).metrics.geometry = 4
    ∧ ∀ data ∈ ((of sparse).takeAll settling).state.platform.engine.reports,
      ∃ b, Batch.ofFlat data = .ok b ∧ b.rectFor? Control.cursor.code = some ⟨0, 8, 4, 12⟩
        ∧ b.rectFor? Control.zoom.code = some .zero := by
  have h₀ : sparse.start = .ok (of sparse) := rfl
  obtain ⟨-, hi, hlayout, -⟩ := informed_takeAll h₀ settling
  have hlength : ((of sparse).takeAll settling).state.platform.engine.reports.length = 4 := by
    decide +kernel
  refine ⟨h₀, hi.counted.trans hlength, fun data hdata => ?_⟩
  obtain ⟨b, hb, -, hd⟩ := hi.described data hdata
  rw [hlayout _ rfl] at hd
  exact ⟨b, hb, hd.rects .cursor, hd.rects .zoom⟩

end HostLoop

end EngineShell
