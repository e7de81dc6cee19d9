import EngineShell.Proofs.Balance
import EngineShell.Proofs.Displays

/-!
# One overlay and one open at a time

Windows go up on the threads that open sessions and come down on the presentation thread, and the
session that owns one passes from a worker through the queue into the slot on the way.
`HostLoop.raised` writes down which attempt put up which window. `exclusive_takeAll` says that at
most one window is up and at most one open is under way, that a window goes up only for a session
that the engine accepted, and that no window outlasts the sink of its session.
-/

namespace EngineShell

namespace Session

/-- The engine's answer puts up a window only if it is no refusal, and then for the session that
it accepts. -/
theorem windows_conclude {s : Session} (h : s.IsFresh) (p : Platform) (a : Answer) :
    (s.conclude p a).platform.windows = p.windows ∧ (s.conclude p a).session.windows = []
      ∨ a.refusal? = none ∧ (s.conclude p a).platform.windows = (p.windows.add s.params).2
        ∧ (s.conclude p a).session.windows = (p.windows.add s.params).1.toOption.toList
        ∧ (s.conclude p a).session.accepted = true := by
  have hs : s.stage ≠ .tornDown := by simp [h.created]
  unfold conclude
  split
  · refine .inl ⟨?_, ?_⟩
    · rw [fail, finish, teardown_eq p hs]
      simp [h.bare, Platform.modifySink]
    · simp [fail, finish, teardown_eq p hs, windows]
  · rename_i hr
    refine .inr ⟨hr, ?_⟩
    unfold goLive Guard.attach Windows.add
    by_cases hf : p.windows.refuseNext
    · have hs' : ({ s with accepted := true } : Session).stage ≠ .tornDown := hs
      simp only [Platform.count, hf, if_true, Except.map, fail, finish]
      rw [teardown_eq _ hs']
      simp [h.bare, Platform.modifySink, windows, Except.toOption]
    · simp [Platform.count, hf, Except.map, Platform.reassert, windows, Except.toOption]

/-- At each point of the teardown of a session that is up, its window is gone if its sink is
closed. -/
theorem IsUp.ids_takeSteps {s : Session} (hs : s.IsUp) {p : Platform}
    (hids : p.windows.ids = s.windows) (hopen : p.IsOpen s.sink) {done : List TeardownStep}
    (hd : done <+: TeardownStep.all) (hc : ¬ (s.takeSteps p done).2.IsOpen s.sink) :
    (s.takeSteps p done).2.windows.ids = [] := by
  have hlive : s.stage ≠ .tornDown := by simp [hs.live]
  have hall : (s.takeSteps p TeardownStep.all).2.windows.ids = [] := by
    have := ids_teardown p hlive
    rw [hids, List.filter_eq_nil_iff.2 (by simp)] at this
    simpa [teardown, isTornDown, hs.live] using this
  have hpart : ∀ steps ∈ [[], [.markFinishing], [.markFinishing, .removeOverlay]],
      (s.takeSteps p steps).2.IsOpen s.sink := by
    have hmark : (s.takeSteps p [.markFinishing]).2.IsOpen s.sink :=
      (p.isOpen_markFinishing s.sink s.sink).2 hopen
    have hdown : (s.takeSteps p [.markFinishing, .removeOverlay]).2.IsOpen s.sink := by
      refine (Platform.isOpen_congr ?_ s.sink).2 hmark
      rcases ho : s.overlay with _ | guard <;> simp [takeSteps, takeStep, ho]
    simp [hmark, hdown, show (s.takeSteps p []).2.IsOpen s.sink from hopen]
  rw [← List.mem_inits] at hd
  simp only [TeardownStep.all, List.inits, List.map_cons, List.map_nil, List.mem_cons,
    List.not_mem_nil, or_false] at hd
  rcases hd with rfl | rfl | rfl | rfl
  · exact (hc (hpart _ (by simp))).elim
  · exact (hc (hpart _ (by simp))).elim
  · exact (hc (hpart _ (by simp))).elim
  · exact hall

end Session

namespace Accounts

variable {lost : Nat} {errands : Multiset Errand} {p : Platform} {pending : Bool}

/-- A window belongs to a session that is up, and whose sink is open. -/
theorem exists_up (h : Accounts lost errands p pending) {id : Nat} (hid : id ∈ p.windows.ids) :
    ∃ s, .up s ∈ errands ∧ s.IsUp ∧ p.IsOpen s.sink ∧ p.windows.ids = s.windows := by
  have hmem : id ∈ (p.windows.ids : Multiset Nat) := hid
  rw [h.windows, Multiset.mem_bind] at hmem
  obtain ⟨e, he, hw⟩ := hmem
  have hfits := h.fits e he
  cases e with
  | up s =>
    obtain ⟨rest, rfl⟩ := Multiset.exists_cons_of_mem he
    exact ⟨s, he, hfits.1, hfits.2.2, h.ids_eq rfl⟩
  | opening s => simp [Errand.windows, hfits.1.windows_eq] at hw
  | sent k o => simp [Errand.windows] at hw
  | ended s => simp [Errand.windows, hfits.1.windows_eq] at hw

theorem length_ids_le (h : Accounts lost errands p pending) : p.windows.ids.length ≤ 1 := by
  rcases hids : p.windows.ids with _ | ⟨id, rest⟩
  · simp
  · have hid : id ∈ p.windows.ids := hids ▸ List.mem_cons_self
    obtain ⟨s, -, hup, -, heq⟩ := h.exists_up hid
    obtain ⟨id', hid'⟩ := hup.covered
    rw [← hids, heq, hid', List.length_singleton]

end Accounts

namespace HostLoop

variable {lost : Nat} {l l' : HostLoop} {t : Turn} {step : HostStep}

theorem up_mem_errands {s : Session} : .up s ∈ l.errands ↔ l.state.slot = .live s
    ∨ (∃ w ∈ l.state.workers, .up s ∈ w.errands) ∨ ∃ c, .opened s none c ∈ l.queue.tasks := by
  have hslot : .up s ∈ l.state.slot.errands ↔ l.state.slot = .live s := by
    cases l.state.slot <;> simp [Slot.errands, eq_comm]
  have htask : (∃ task ∈ l.queue.tasks, .up s ∈ task.errands)
      ↔ ∃ c, .opened s none c ∈ l.queue.tasks := by
    constructor
    · rintro ⟨task, ht, hs⟩
      rcases task with _ | _ | _ | ⟨s', _ | f, c⟩ <;>
        simp [HostTask.errands, Errand.ofOpened] at hs
      exact ⟨c, hs ▸ ht⟩
    · rintro ⟨c, hc⟩
      exact ⟨_, hc, by simp [HostTask.errands, Errand.ofOpened]⟩
  rw [errands, Multiset.mem_add, Multiset.mem_add, hslot, Multiset.mem_bind, Multiset.mem_bind,
    or_assoc]
  simp only [Multiset.mem_coe, htask]

theorem up_of_turn (hb : l.Balanced lost) (h : l.turn? step = some (l', t)) {s : Session}
    (hs : .up s ∈ (l.take step).errands) : .up s ∈ l.errands := by
  rw [take_turn h] at hs
  rcases up_mem_errands.1 hs with hlive | ⟨w, hw, hs⟩ | ⟨c, hc⟩
  · rcases lowers_turn h with hl | ⟨s', c, rest, -, hq, -, rfl⟩
    · exact up_mem_errands.2 (.inl (hl.live s hlive))
    · cases hlive
      exact up_mem_errands.2 (.inr (.inr ⟨c, by simp [hq]⟩))
  · have hw' : w ∈ t.host.workers := hw
    rcases hb.turn_cases h with ⟨c, -, -, hl, -⟩ | ⟨-, ht⟩
    · rw [hl.workers, List.mem_append, List.mem_singleton] at hw'
      rcases hw' with hw' | rfl
      · exact up_mem_errands.2 (.inr (.inl ⟨w, hw', hs⟩))
      · simp [Worker.errands] at hs
    · exact up_mem_errands.2 (.inr (.inl ⟨w, ht.workers ▸ hw', hs⟩))
  · rcases mem_land hc with hc | hc
    · exact up_mem_errands.2 (.inr (.inr ⟨c, mem_of_turn h hc⟩))
    · rcases hb.turn_cases h with ⟨c, -, -, -, hp⟩ | ⟨-, ht⟩
      · simp [hp] at hc
      · obtain ⟨k, o, heq⟩ := ht.posts _ hc
        cases heq

/-- The windows that a step puts up, each with the attempt whose session it is for. -/
def raised (l : HostLoop) : HostStep → List (Nat × Nat)
  | .answer i a =>
    match l.state.workers[i]? with
    | some w =>
      if w.stage = .opening then
        (w.session.conclude l.state.platform a).session.windows.map (w.session.sink, ·)
      else []
    | none => []
  | _ => []

def owners (l : HostLoop) : List HostStep → List (Nat × Nat)
  | [] => []
  | step :: steps => l.raised step ++ (l.take step).owners steps

theorem owners_concat (l : HostLoop) (steps : List HostStep) (step : HostStep) :
    l.owners (steps ++ [step]) = l.owners steps ++ (l.takeAll steps).raised step := by
  induction steps generalizing l with
  | nil => simp [owners]
  | cons s steps ih =>
    rw [List.cons_append, owners, owners, ih, List.append_assoc]
    rfl

/-- The windows of a run are on record, and each that is still up with its own session. -/
structure Owned (g : List (Nat × Nat)) (l : HostLoop) : Prop where
  logged : l.state.platform.windows.Logged
  listed : g.map (·.2) = l.state.platform.windows.addedIds
  up : ∀ s, .up s ∈ l.errands → ∀ id ∈ s.windows, (s.sink, id) ∈ g

variable {g : List (Nat × Nat)}

theorem Owned.sheds (ho : Owned g l)
    (hw : l.state.platform.windows.Sheds l'.state.platform.windows)
    (hup : ∀ s, .up s ∈ l'.errands → .up s ∈ l.errands) : Owned g l' :=
  ⟨hw.logged ho.logged, ho.listed.trans hw.addedIds_eq.symm, fun s hs => ho.up s (hup s hs)⟩

theorem raised_eq_nil (h : ∀ i a, step ≠ .answer i a) : l.raised step = [] := by
  cases step with
  | answer i a => exact (h i a rfl).elim
  | _ => rfl

/-- The engine has answered a worker: it puts up the window of a session that it accepts, if the
display lets it. -/
structure Answers (l : HostLoop) (i : Nat) (a : Answer) (w w' : Worker) : Prop where
  before : l.state.workers[i]? = some w
  opening : w.stage = .opening
  workers : (l.answer i a).state.workers = l.state.workers.set i w'
  rest : (l.answer i a).state.slot = l.state.slot ∧ (l.answer i a).queue = l.queue
  sink : w'.session.sink = w.session.sink
  raised : l.raised (.answer i a) = w'.session.windows.map (w'.session.sink, ·)
  windows : (l.answer i a).state.platform.windows = l.state.platform.windows
      ∧ w'.session.windows = []
    ∨ a.refusal? = none ∧ w'.session.accepted = true
      ∧ (l.answer i a).state.platform.windows
        = (l.state.platform.windows.add w.session.params).2
      ∧ w'.session.windows
        = (l.state.platform.windows.add w.session.params).1.toOption.toList

theorem answer_spec (hb : l.Balanced lost) (i : Nat) (a : Answer) :
    (l.answer i a = l ∧ l.raised (.answer i a) = []) ∨ ∃ w w', l.Answers i a w w' := by
  rcases hw : l.state.workers[i]? with _ | w
  · exact .inl (by simp [answer, raised, hw])
  by_cases hs : w.stage = .opening
  · have hfresh : w.session.IsFresh := by
      have hmem : .opening w.session ∈ l.errands := by
        rw [errands_dropWorker hw, Worker.errands, hs]
        simp
      exact (hb.accounts.fits _ hmem).1
    set o := w.session.conclude l.state.platform a with ho
    have hanswer : l.answer i a = (l.modifyPlatform fun _ => o.platform).setWorker i
        { w with session := o.session, stage := .ended o.failure o.delivered } := by
      simp only [answer, hw, if_pos hs, ho]
    have hsink : o.session.sink = w.session.sink :=
      (w.session.sink_conclude l.state.platform a).1
    refine .inr ⟨w, { w with session := o.session, stage := .ended o.failure o.delivered },
      hw, hs, ?_, ?_, hsink, ?_, ?_⟩
    · rw [hanswer]
      rfl
    · rw [hanswer]
      exact ⟨rfl, rfl⟩
    · simp [raised, hw, hs, ← ho, hsink]
    · rw [hanswer]
      rcases Session.windows_conclude hfresh l.state.platform a with hbare | ⟨hr, hp, hws, hacc⟩
      · exact .inl hbare
      · exact .inr ⟨hr, hacc, hp, hws⟩
  · exact .inl (by simp [answer, raised, hw, hs])

theorem up_of_answer {i : Nat} {a : Answer} {w w' : Worker} (ha : l.Answers i a w w') {s : Session}
    (hs : .up s ∈ (l.answer i a).errands) : .up s ∈ l.errands ∨ s = w'.session := by
  rcases up_mem_errands.1 hs with hlive | ⟨v, hv, hs⟩ | ⟨c, hc⟩
  · exact .inl (up_mem_errands.2 (.inl (ha.rest.1 ▸ hlive)))
  · rw [ha.workers] at hv
    rcases List.mem_or_eq_of_mem_set hv with hv | rfl
    · exact .inl (up_mem_errands.2 (.inr (.inl ⟨v, hv, hs⟩)))
    · right
      unfold Worker.errands Errand.ofOpened at hs
      split at hs
      · split at hs <;> simp at hs
        exact hs
      · split at hs <;> simp at hs
        exact hs
      · simp at hs
  · exact .inl (up_mem_errands.2 (.inr (.inr ⟨c, ha.rest.2 ▸ hc⟩)))

theorem Owned.answer (ho : Owned g l) (hb : l.Balanced lost) (i : Nat) (a : Answer) :
    Owned (g ++ l.raised (.answer i a)) (l.answer i a) := by
  rcases answer_spec hb i a with ⟨heq, hr⟩ | ⟨w, w', ha⟩
  · rw [heq, hr, List.append_nil]
    exact ho
  have hup : ∀ s, .up s ∈ (l.answer i a).errands → ∀ id ∈ s.windows,
      (s.sink, id) ∈ g ++ l.raised (.answer i a) := by
    intro s hs id hid
    rcases up_of_answer ha hs with hs | rfl
    · exact List.mem_append_left _ (ho.up s hs id hid)
    · rw [ha.raised]
      exact List.mem_append_right _ (List.mem_map_of_mem hid)
  have hlisted : (g ++ l.raised (.answer i a)).map (·.2)
      = l.state.platform.windows.addedIds ++ w'.session.windows := by
    simp [ha.raised, ho.listed, Function.comp_def]
  rcases ha.windows with ⟨hp, hn⟩ | ⟨-, -, hp, hws⟩
  · exact ⟨hp ▸ ho.logged, by rw [hlisted, hp, hn, List.append_nil], hup⟩
  · refine ⟨hp ▸ ho.logged.add _, ?_, hup⟩
    rw [hlisted, hp, hws, Windows.addedIds_add]

theorem Owned.take (ho : Owned g l) (hb : l.Balanced lost) (step : HostStep) :
    Owned (g ++ l.raised step) (l.take step) := by
  by_cases hstep : ∃ i a, step = .answer i a
  · obtain ⟨i, a, rfl⟩ := hstep
    exact ho.answer hb i a
  replace hstep : ∀ i a, step ≠ .answer i a := fun i a h => hstep ⟨i, a, h⟩
  rw [raised_eq_nil hstep, List.append_nil]
  rcases hturn : l.turn? step with _ | ⟨l', t⟩
  · have he := errands_offThread hb.running hturn hstep
    rcases windows_offThread hturn hstep with hw | hw
    · exact ho.sheds (hw ▸ .refl _) fun s hs => he ▸ hs
    · exact ⟨hw ▸ ho.logged.failNext, hw ▸ ho.listed, fun s hs => ho.up s (he ▸ hs)⟩
  · refine ho.sheds ?_ fun s => up_of_turn hb hturn
    rw [take_turn hturn]
    exact (sheds_turn hturn).1

theorem owned_takeAll {s : HostSetup} {l₀ : HostLoop} (h₀ : s.start = .ok l₀)
    (steps : List HostStep) : Owned (l₀.owners steps) (l₀.takeAll steps) := by
  induction steps using List.reverseRecOn with
  | nil =>
    obtain ⟨layout, rfl⟩ := start_eq h₀
    exact ⟨.empty, rfl, by simp [up_mem_errands]⟩
  | append_singleton steps step ih =>
    obtain ⟨lost, hb, -⟩ := balanced_takeAll (balanced_start h₀) steps
    rw [owners_concat, takeAll_concat]
    exact ih.take hb step

/-- The engine is asked to open by a worker that starts, and by nothing else. -/
theorem exists_starting
    (h : (l.take step).state.platform.engine.opens ≠ l.state.platform.engine.opens) :
    ∃ (i : Nat) (w : Worker), l.state.workers[i]? = some w ∧ w.stage = .starting := by
  rcases hturn : l.turn? step with _ | ⟨l', t⟩
  · cases step with
    | handle e => simp [turn?] at hturn
    | runTask =>
      have hq : l.queue.tasks = [] := by simpa [turn?] using hturn
      exact (h (by rw [HostLoop.take, runTask_nil hq])).elim
    | command k c =>
      refine (h ?_).elim
      simp only [HostLoop.take, HostLoop.command, modifyPlatform, modify, Platform.apply]
      split <;> rfl
    | enter i =>
      rcases l.enter_cases i with heq | ⟨w, hw, hs, -⟩
      · exact (h (by rw [HostLoop.take, heq])).elim
      · exact ⟨i, w, hw, hs⟩
    | answer i a =>
      refine (h ?_).elim
      rcases l.answer_cases i a with heq | ⟨w, o, -, -, rfl, heq⟩ <;> rw [HostLoop.take, heq]
      exact congrArg EngineLink.opens (w.session.engine_conclude l.state.platform a)
    | deliver i =>
      refine (h ?_).elim
      rcases l.deliver_cases i with heq | ⟨w, failure, o, -, -, heq⟩ <;> rw [HostLoop.take, heq]
      rfl
    | complete i =>
      refine (h ?_).elim
      rcases l.complete_cases i with heq | ⟨w, failure, -, -, heq⟩ <;> rw [HostLoop.take, heq]
      rfl
    | _ => exact (h rfl).elim
  · rw [take_turn hturn] at h
    exact (h (sheds_turn hturn).2).elim

theorem Balanced.opening_unique (hb : l.Balanced lost) {i : Nat} {w : Worker}
    (hw : l.state.workers[i]? = some w) (hs : w.errands = {.opening w.session}) :
    ∀ w' ∈ l.state.workers.eraseIdx i, w'.stage ≠ .opening := by
  intro w' hw' hstage
  have ha := hb.accounts
  rw [errands_dropWorker hw, hs, Multiset.singleton_add] at ha
  obtain ⟨-, -, hrest⟩ := ha.rest_of_carries (e := .opening w.session) rfl
  have hmem : .opening w'.session ∈ (l.dropWorker i).errands := by
    refine Multiset.mem_add.2 (.inl (Multiset.mem_add.2 (.inr (Multiset.mem_bind.2 ⟨w', hw', ?_⟩))))
    simp [Worker.errands, hstage]
  simpa using hrest _ hmem

/-- The window that a step puts up is that of the session which the engine accepts in that step. -/
theorem Balanced.accepted_of_added (hb : l.Balanced lost) (ho : Owned g l) {id : Nat}
    (hnew : .added id ∈ (l.take step).state.platform.windows.events)
    (hold : .added id ∉ l.state.platform.windows.events) :
    ∃ i a w w', step = .answer i a ∧ l.state.workers[i]? = some w ∧ w.stage = .opening
      ∧ a.refusal? = none ∧ (l.take step).state.workers[i]? = some w'
      ∧ w'.session.sink = w.session.sink ∧ w'.session.accepted = true
      ∧ w'.session.windows = [id] := by
  rw [← Windows.mem_addedIds] at hnew hold
  by_cases hstep : ∃ i a, step = .answer i a
  · obtain ⟨i, a, rfl⟩ := hstep
    rcases answer_spec hb i a with ⟨heq, -⟩ | ⟨w, w', ha⟩
    · exact (hold (heq ▸ hnew)).elim
    obtain ⟨hi, -⟩ := List.getElem?_eq_some_iff.1 ha.before
    rcases ha.windows with ⟨hp, -⟩ | ⟨hr, hacc, hp, hws⟩
    · exact (hold (hp ▸ hnew)).elim
    · refine ⟨i, a, w, w', rfl, ha.before, ha.opening, hr, ?_, ha.sink, hacc, ?_⟩
      · rw [HostLoop.take, ha.workers]
        exact List.getElem?_set_self hi
      · rw [HostLoop.take, hp, Windows.addedIds_add, List.mem_append] at hnew
        rw [hws]
        rcases hadd : (l.state.platform.windows.add w.session.params).1 with e | id' <;>
          simp [hadd, hold, Except.toOption] at hnew ⊢
        exact hnew.symm
  · -- the windows on record are those put up so far, and only an answer puts up another one
    have hlisted := (ho.take hb step).listed
    rw [raised_eq_nil fun i a h => hstep ⟨i, a, h⟩, List.append_nil, ho.listed] at hlisted
    exact (hold (hlisted ▸ hnew)).elim

/-- What holds of the windows and of the calls of the engine, with the windows that were put up so
far and the attempts that they were put up for. -/
structure Exclusive (g : List (Nat × Nat)) (l : HostLoop) : Prop where
  window : l.state.platform.windows.attached.length ≤ 1
  call : l.state.workers.countP (·.stage == .opening) ≤ 1
  /-- A call to open starts while no window is up, and no other call is under way. -/
  starts : ∀ step,
    (l.take step).state.platform.engine.opens ≠ l.state.platform.engine.opens →
      l.state.platform.windows.attached = [] ∧ ∀ w ∈ l.state.workers, w.stage ≠ .opening
  /-- A window goes up when the engine accepts the session that it is for. -/
  accepted : ∀ step id, .added id ∈ (l.take step).state.platform.windows.events →
    .added id ∉ l.state.platform.windows.events →
      ∃ i a w w', step = .answer i a ∧ l.state.workers[i]? = some w ∧ w.stage = .opening
        ∧ a.refusal? = none ∧ (l.take step).state.workers[i]? = some w'
        ∧ w'.session.sink = w.session.sink ∧ w'.session.accepted = true
        ∧ w'.session.windows = [id]
  /-- Each number is added once. -/
  added : l.state.platform.windows.addedIds = List.range' 1 l.state.platform.windows.lastId
  removed : l.state.platform.windows.removedIds.Nodup
  ordered : ∀ before id after,
    l.state.platform.windows.events = before ++ .removed id :: after → .added id ∈ before
  listed : g.map (·.2) = l.state.platform.windows.addedIds
  /-- An attempt whose sink is closed has no window. -/
  closed : ∀ k id, (k, id) ∈ g → ¬ l.state.platform.IsOpen k →
    id ∉ l.state.platform.windows.attached.map (·.1)
  /-- Nor has it one at any point of the teardown of its session. -/
  teardown : ∀ s, (l.state.slot = .live s ∨ ∃ c, .opened s none c ∈ l.queue.tasks) →
    ∀ done, done <+: TeardownStep.all →
      ¬ (s.takeSteps l.state.platform done).2.IsOpen s.sink →
        (s.takeSteps l.state.platform done).2.windows.attached = []

theorem Balanced.exclusive (hb : l.Balanced lost) (ho : Owned g l) : Exclusive g l where
  window := by simpa [Windows.ids] using hb.accounts.length_ids_le
  call := by
    by_cases h : ∃ w ∈ l.state.workers, w.stage = .opening
    · obtain ⟨w, hmem, hs⟩ := h
      obtain ⟨i, hi⟩ := List.getElem?_of_mem hmem
      have huniq := hb.opening_unique hi (by rw [Worker.errands, hs])
      have hperm : l.state.workers.Perm (w :: l.state.workers.eraseIdx i) := by
        have := coe_workers hi
        rwa [Multiset.cons_coe, Multiset.coe_eq_coe] at this
      rw [hperm.countP_eq, List.countP_cons, List.countP_eq_zero.2 (by simpa using huniq)]
      split_ifs <;> omega
    · rw [List.countP_eq_zero.2 (by simpa using h)]
      omega
  starts := by
    intro step hstep
    obtain ⟨i, w, hw, hs⟩ := exists_starting hstep
    have herr : w.errands = {.opening w.session} := by rw [Worker.errands, hs]
    have ha := hb.accounts
    rw [errands_dropWorker hw, herr, Multiset.singleton_add] at ha
    refine ⟨List.map_eq_nil_iff.1 ha.of_opening.1, fun w' hw' hstage => ?_⟩
    have hmem : w' ∈ (l.state.workers : Multiset Worker) := hw'
    rw [coe_workers hw, Multiset.mem_cons] at hmem
    rcases hmem with rfl | hmem
    · simp [hs] at hstage
    · exact hb.opening_unique hw herr w' hmem hstage
  accepted := fun _ _ => hb.accepted_of_added ho
  added := ho.logged.added
  removed := ho.logged.removed
  ordered := ho.logged.ordered
  listed := ho.listed
  closed := by
    intro k id hk hclosed hid
    obtain ⟨s, hs, hup, hopen, hids⟩ := hb.accounts.exists_up hid
    have hown := ho.up s hs id (hids ▸ hid)
    -- no number was put up twice, so the attempt is the one whose session is up
    have hnodup : (g.map (·.2)).Nodup := by
      rw [ho.listed, ho.logged.added]
      exact List.nodup_range'
    obtain rfl : k = s.sink := congrArg Prod.fst (List.inj_on_of_nodup_map hnodup hk hown rfl)
    exact hclosed hopen
  teardown := by
    intro s hs done hd hclosed
    have hmem : .up s ∈ l.errands := up_mem_errands.2 (hs.imp_right .inr)
    have hfits := hb.accounts.fits _ hmem
    obtain ⟨rest, hrest⟩ := Multiset.exists_cons_of_mem hmem
    have hids := (hrest ▸ hb.accounts).ids_eq (e := .up s) rfl
    exact List.map_eq_nil_iff.1 (hfits.1.ids_takeSteps hids hfits.2.2 hd hclosed)

/-- In every run at most one window is up and at most one call to open is under way, none starts
while a window is up, a window goes up for a session that the engine has accepted, is added once
and removed at most once, and is gone once the sink of its attempt is closed. -/
theorem exclusive_takeAll {s : HostSetup} {l₀ : HostLoop} (h₀ : s.start = .ok l₀)
    (steps : List HostStep) : Exclusive (l₀.owners steps) (l₀.takeAll steps) := by
  obtain ⟨lost, hb, -⟩ := balanced_takeAll (balanced_start h₀) steps
  exact hb.exclusive (owned_takeAll h₀ steps)

/-- A run in which a second session goes up after the first one has ended. -/
def reopened : List HostStep :=
  [.handle .create, .handle (.loginClicked {}), .enter 0, .answer 0 .accepted, .complete 0,
    .runTask, .handle .backPressed, .runTask, .handle (.loginClicked {}), .enter 0,
    .answer 0 .accepted]

/-- Such a run ends with the window of the second attempt up, and that of the first one gone. -/
theorem exclusive_reopened : HostSetup.start {} = .ok (of {})
    ∧ (of {}).owners reopened = [(0, 1), (1, 2)]
      ∧ ((of {}).takeAll reopened).state.platform.windows.ids = [2]
      ∧ Exclusive ((of {}).owners reopened) ((of {}).takeAll reopened) :=
  have h₀ : HostSetup.start {} = .ok (of {}) := rfl
  ⟨h₀, by decide +kernel, by decide +kernel, exclusive_takeAll h₀ reopened⟩

end HostLoop

end EngineShell
