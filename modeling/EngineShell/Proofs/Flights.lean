import EngineShell.Proofs.Overlays
import EngineShell.Proofs.Pairs

/-!
# An attempt under way

From the submission to its completion the slot of an attempt is opening. `Flight` says what has
come of the attempt meanwhile: the engine has not answered, or the session is up and its window
with it, or the attempt has failed and its outcome is on its way or shown. Which termination the
slot holds is the first one that was met (`Flight.take`), and after the completion the slot is idle
and one outcome is left (`Flight.land`).
-/

namespace EngineShell

/-- How an attempt fails that the engine answers, if it does: the engine refuses it, or the display
its window. -/
def Answer.failure? (a : Answer) (w : Windows) : Option Outcome :=
  match a.refusal? with
  | some message => some (.recoverable message)
  | none => if w.refuseNext then some (.fatal WindowError.refused.message) else none

namespace Windows

theorem events_add (w : Windows) (params : WindowParams) :
    (w.add params).2.events = w.events ++ (w.add params).1.toOption.toList.map .added := by
  unfold add
  split_ifs <;> simp [Except.toOption]

end Windows

namespace Session

theorem failure_conclude (s : Session) (p : Platform) (a : Answer) :
    (s.conclude p a).failure = a.failure? p.windows := by
  rcases hr : a.refusal? with _ | message
  · simp only [conclude, Answer.failure?, hr]
    unfold goLive Guard.attach Windows.add
    by_cases hf : p.windows.refuseNext <;> simp [hf, Platform.count, Except.map, fail]
  · simp only [conclude, Answer.failure?, hr, fail]

theorem events_conclude {s : Session} (h : s.IsFresh) (p : Platform) (a : Answer) :
    (s.conclude p a).platform.windows.events
      = p.windows.events ++ (s.conclude p a).session.windows.map .added := by
  rcases windows_conclude h p a with ⟨hp, hs⟩ | ⟨-, hp, hs, -⟩
  · simp [hp, hs]
  · rw [hp, hs, Windows.events_add]

theorem events_teardown {s : Session} {p : Platform} {id : Nat} (hs : s.stage ≠ .tornDown)
    (hw : s.windows = [id]) (hid : id ∈ p.windows.ids) :
    (s.teardown p).2.2.windows.events = p.windows.events ++ [.removed id] := by
  rw [teardown_eq p hs]
  rcases ho : s.overlay with _ | ⟨_ | id', layout⟩ <;> simp [windows, ho] at hw
  subst hw
  simp [Platform.modifySink, Guard.remove, Windows.remove, Windows.isAttached_iff.2 hid]

end Session

namespace HostLoop

variable {α : Type} {l l' : HostLoop} {t : Turn} {step : HostStep}

/-- What is found in the steps of a run, in order. -/
def collect (find? : HostLoop → HostStep → Option α) (l : HostLoop) : List HostStep → List α
  | [] => []
  | step :: steps => (find? l step).toList ++ (l.take step).collect find? steps

theorem collect_append (find? : HostLoop → HostStep → Option α) (l : HostLoop)
    (steps steps' : List HostStep) : l.collect find? (steps ++ steps')
      = l.collect find? steps ++ (l.takeAll steps).collect find? steps' := by
  induction steps generalizing l with
  | nil => rfl
  | cons step steps ih =>
    rw [List.cons_append, collect, collect, ih, List.append_assoc]
    rfl

theorem collect_concat (find? : HostLoop → HostStep → Option α) (l : HostLoop)
    (steps : List HostStep) (step : HostStep) : l.collect find? (steps ++ [step])
      = l.collect find? steps ++ (find? (l.takeAll steps) step).toList := by
  rw [collect_append, collect, collect, List.append_nil]

/-- The outcome with which a step ends a session: that of the event that it handles, or of the
command that it carries out. -/
def termination? (l : HostLoop) (step : HostStep) : Option Outcome :=
  match l.event? step, l.task? step with
  | some e, _ => e.termination?
  | none, some (.command _ c) => c.termination?
  | _, _ => none

/-- The outcome that a step hands to the form. -/
def outcome? (l : HostLoop) (step : HostStep) : Option Outcome :=
  ((l.task? step).bind HostTask.outcome?).map (·.2)

/-- The attempt that a step answers for the engine, and how it fails, if it does. -/
def verdict? (l : HostLoop) : HostStep → Option (Nat × Option Outcome)
  | .answer i a =>
    match l.state.workers[i]? with
    | some w =>
      if w.stage = .opening then some (w.session.sink, a.failure? l.state.platform.windows)
      else none
    | none => none
  | _ => none

def terminations (l : HostLoop) (steps : List HostStep) : List Outcome :=
  l.collect termination? steps

def outcomes (l : HostLoop) (steps : List HostStep) : List Outcome :=
  l.collect outcome? steps

/-- The attempts that the engine answers in a run, and how they fail. -/
def verdicts (l : HostLoop) (steps : List HostStep) : List (Nat × Option Outcome) :=
  l.collect verdict? steps

/-- The outcomes that wait for the form. -/
def queued (l : HostLoop) : List Outcome :=
  (l.queue.tasks.filterMap HostTask.outcome?).map (·.2)

/-- How far an attempt has come that is under way: what it has left to do, what the engine has
answered, what the form has got, and what has happened to the display. -/
inductive Course (k : Nat) : Multiset Errand → List (Nat × Option Outcome) → List Outcome →
    List WindowEvent → Prop where
  | asked {s : Session} (hs : s.sink = k) : Course k {.opening s} [] [] []
  | up {s : Session} {id : Nat} (hs : s.sink = k) (hw : s.windows = [id]) :
    Course k {.up s} [(k, none)] [] [.added id]
  | failed {s : Session} {f : Outcome} (hs : s.sink = k) :
    Course k (.sent k f ::ₘ {.ended s}) [(k, some f)] [] []
  | shown {s : Session} {f : Outcome} (hs : s.sink = k) :
    Course k {.ended s} [(k, some f)] [f] []

/-- An attempt is under way: the slot is opening and holds the first termination that was heard.
`before` is what has happened to the display before the attempt. -/
structure Flight (before : List WindowEvent) (k : Nat) (heard : List Outcome)
    (verdicts : List (Nat × Option Outcome)) (got : List Outcome) (l : HostLoop) : Prop
    extends Paired l where
  slot : l.state.slot = .opening heard.head?
  course : ∃ since, Course k l.errands verdicts got since
    ∧ l.state.platform.windows.events = before ++ since

/-- What is left of an attempt once its completion has been run: one outcome, got by the form or
waiting for it. -/
structure Landed (events : List WindowEvent) (x : Outcome) (got : List Outcome) (l : HostLoop) :
    Prop extends Paired l where
  slot : l.state.slot = .idle
  outcome : got ++ l.queued = [x]
  cleared : l.state.platform.windows.attached = []
  events : l.state.platform.windows.events = events

theorem termination?_offThread (h : l.turn? step = none) : l.termination? step = none := by
  cases step with
  | handle e => simp [turn?] at h
  | runTask =>
    have hq : l.queue.tasks = [] := by simpa [turn?] using h
    simp [termination?, event?, task?, hq]
  | _ => rfl

theorem outcome?_offThread (h : l.turn? step = none) : l.outcome? step = none := by
  rw [outcome?, task?_eq_none h]
  rfl

theorem verdict?_of_ne (h : ∀ i a, step ≠ .answer i a) : l.verdict? step = none := by
  cases step with
  | answer i a => exact (h i a rfl).elim
  | _ => rfl

theorem outcome?_of_event {e : HostEvent} (h : l.event? step = some e) :
    l.outcome? step = none ∧ l.verdict? step = none := by
  refine ⟨?_, verdict?_of_ne ?_⟩
  · rcases task?_of_event h with htask | htask <;> rw [outcome?, htask] <;> rfl
  · rintro i a rfl
    simp [event?, task?] at h

theorem dispatching_ne_none (hp : l.Paired) (hh : l.halved = [])
    (hs : l.state.slot.phase = .opening) : l.state.dispatching ≠ none := by
  obtain ⟨e, -, k, -, hk⟩ := hp.opening hs
  rw [(hp.dispatching k).2 ⟨hp.pending_of_opening hh hs, hk⟩]
  simp

/-- A turn between two completions, without a live session: it may have a termination held, and
posts nothing. -/
theorem hold_turn (h : l.turn? step = some (l', t)) (hs : ∀ s, l.state.slot ≠ .live s)
    (hno : ∀ c, l.event? step = some (.loginClicked c) → l.state.takes = false)
    (hd : l.state.slot ≠ .idle → l.state.dispatching ≠ none)
    (ho : (l.task? step).any HostTask.isOpened = false) :
    t.host.slot = l.state.slot.hold (l.termination? step) ∧ t.posts = [] := by
  cases turnOf h with
  | event e he =>
    obtain ⟨seen, hseen⟩ := l.state.handle_eq e
    rw [hseen, termination?, he]
    exact Turn.hold_handle hs fun c hc => hno c (hc ▸ he)
  | command k c rest hq =>
    have : l.termination? .runTask = c.termination? := by simp [termination?, event?, task?, hq]
    rw [this]
    exact Turn.hold_onCommand hs hd c
  | outcome k o rest hq =>
    have : l.termination? .runTask = none := by simp [termination?, event?, task?, hq]
    rw [this, Slot.hold_none]
    exact ⟨rfl, rfl⟩
  | opened s failure c rest hq => simp [task?, hq, HostTask.isOpened] at ho

/-- Such a turn leaves the errands as they are, but for the outcome that it shows. -/
theorem errands_hold (h : l.turn? step = some (l', t)) (hs : ∀ s, l.state.slot ≠ .live s)
    (hs' : ∀ s, t.host.slot ≠ .live s) (hw : t.host.workers = l.state.workers)
    (hp : t.posts = []) (ho : (l.task? step).any HostTask.isOpened = false) :
    l.errands = ((l.task? step).bind HostTask.outcome?).elim 0 (fun p => {.sent p.1 p.2})
      + (l.take step).errands := by
  have hland : ∀ m : HostLoop, m.state = l.state → (m.land t).errands = m.errands := by
    intro m hm
    rw [errands, errands, hm, Slot.errands_eq_zero.2 hs, land, hw, hp,
      Slot.errands_eq_zero.2 hs']
    rfl
  rw [take_turn h]
  rcases turn?_eq_some.1 h with ⟨e, rfl, rfl, -⟩ | ⟨task, rest, rfl, hq, rfl, -⟩
  · rw [hland l' rfl]
    exact (zero_add _).symm
  · rw [hland l.pop rfl, errands_pop hq]
    congr 1
    have htask : l.task? .runTask = some task := by simp [task?, hq]
    rw [htask]
    cases task with
    | opened s failure c => simp [htask, HostTask.isOpened] at ho
    | _ => rfl

namespace Course

variable {k : Nat} {es es' : Multiset Errand} {verdicts : List (Nat × Option Outcome)}
  {got : List Outcome} {since : List WindowEvent}

theorem present (hc : Course k es verdicts got since) {k' : Nat} {o : Outcome}
    (he : es = .sent k' o ::ₘ es') : Course k es' verdicts (got ++ [o]) since := by
  have hmem : .sent k' o ∈ es := he ▸ Multiset.mem_cons_self _ _
  cases hc with
  | asked hs => simp at hmem
  | up hs hw => simp at hmem
  | failed hs =>
    simp only [Multiset.mem_cons, Multiset.mem_singleton, reduceCtorEq, or_false,
      Errand.sent.injEq] at hmem
    obtain ⟨rfl, rfl⟩ := hmem
    rw [← (Multiset.cons_inj_right _).1 he]
    exact .shown hs
  | shown hs => simp at hmem

theorem eq_of_opening (hc : Course k es verdicts got since) {s : Session}
    (he : es = .opening s ::ₘ es') : es' = 0 ∧ s.sink = k ∧ verdicts = [] ∧ got = [] ∧ since = []
      := by
  have hmem : .opening s ∈ es := he ▸ Multiset.mem_cons_self _ _
  cases hc with
  | asked hs =>
    obtain ⟨h, rfl⟩ := Multiset.singleton_eq_cons_iff es' |>.1 he
    cases h
    exact ⟨rfl, hs, rfl, rfl, rfl⟩
  | up hs hw => simp at hmem
  | failed hs => simp at hmem
  | shown hs => simp at hmem

theorem complete (hc : Course k es verdicts got since) {s : Session} {failure : Option Outcome}
    (he : es = .ofOpened s failure ::ₘ es') :
    (failure = none ∧ s.sink = k ∧ verdicts = [(k, none)] ∧ got = [] ∧ es' = 0
        ∧ ∃ id, s.windows = [id] ∧ since = [.added id])
      ∨ ∃ f, failure.isSome = true ∧ verdicts = [(k, some f)] ∧ since = []
        ∧ (got = [] ∧ es' = {.sent k f} ∨ got = [f] ∧ es' = 0) := by
  have hmem : .ofOpened s failure ∈ es := he ▸ Multiset.mem_cons_self _ _
  cases hc with
  | asked hs => cases failure <;> simp [Errand.ofOpened] at hmem
  | up hs hw =>
    obtain ⟨h, rfl⟩ := (Multiset.singleton_eq_cons_iff es').1 he
    cases failure with
    | none =>
      cases h
      exact .inl ⟨rfl, hs, rfl, rfl, rfl, _, hw, rfl⟩
    | some f => cases h
  | @failed s' f hs =>
    cases failure with
    | none => simp [Errand.ofOpened] at hmem
    | some f' =>
      simp only [Errand.ofOpened, Multiset.mem_cons, reduceCtorEq, Multiset.mem_singleton,
        Errand.ended.injEq, false_or] at hmem
      subst hmem
      have hswap : (.ended s ::ₘ {.sent k f} : Multiset Errand) = .ended s ::ₘ es' :=
        (Multiset.pair_comm _ _).trans he
      exact .inr ⟨f, rfl, rfl, rfl, .inl ⟨rfl, ((Multiset.cons_inj_right _).1 hswap).symm⟩⟩
  | @shown s' f hs =>
    obtain ⟨h, rfl⟩ := (Multiset.singleton_eq_cons_iff es').1 he
    cases failure with
    | none => cases h
    | some f' => exact .inr ⟨f, rfl, rfl, rfl, .inr ⟨rfl, rfl⟩⟩

end Course

namespace Flight

variable {before : List WindowEvent} {k : Nat} {heard : List Outcome}
  {verdicts : List (Nat × Option Outcome)} {got : List Outcome}

theorem not_live (hf : Flight before k heard verdicts got l) (s : Session) :
    l.state.slot ≠ .live s := by
  simp [hf.slot]

theorem phase (hf : Flight before k heard verdicts got l) : l.state.slot.phase = .opening := by
  simp [hf.slot, Slot.phase]

theorem answer (hf : Flight before k heard verdicts got l) (i : Nat) (a : Answer) :
    ∃ since, Course k (l.answer i a).errands (verdicts ++ (l.verdict? (.answer i a)).toList) got
        since
      ∧ (l.answer i a).state.platform.windows.events = before ++ since := by
  obtain ⟨since, hc, hev⟩ := hf.course
  rcases hw : l.state.workers[i]? with _ | w
  · have hsame : l.answer i a = l := by simp [HostLoop.answer, hw]
    rw [hsame]
    exact ⟨since, by simpa [verdict?, hw] using hc, hev⟩
  by_cases hs : w.stage = .opening
  swap
  · have hsame : l.answer i a = l := by simp [HostLoop.answer, hw, hs]
    rw [hsame]
    exact ⟨since, by simpa [verdict?, hw, hs] using hc, hev⟩
  have he : l.errands = .opening w.session ::ₘ (l.dropWorker i).errands := by
    rw [errands_dropWorker hw, Worker.errands, hs, Multiset.singleton_add]
  obtain ⟨hrest, hsink, rfl, rfl, rfl⟩ := hc.eq_of_opening he
  have hfresh : w.session.IsFresh :=
    (hf.accounts.fits (.opening w.session) (he ▸ Multiset.mem_cons_self _ _)).1
  set o := w.session.conclude l.state.platform a with ho
  have hanswer : l.answer i a = (l.modifyPlatform fun _ => o.platform).setWorker i
      { w with session := o.session, stage := .ended o.failure o.delivered } := by
    simp only [HostLoop.answer, hw, if_pos hs, ho]
  have herrands : (l.answer i a).errands = Worker.errands
      { w with session := o.session, stage := .ended o.failure o.delivered } := by
    have := errands_setWorker (l := l.modifyPlatform fun _ => o.platform) hw
      { w with session := o.session, stage := .ended o.failure o.delivered }
    rw [hanswer, this, show ((l.modifyPlatform fun _ => o.platform).dropWorker i).errands
      = (l.dropWorker i).errands from rfl, hrest, add_zero]
  have hevents : (l.answer i a).state.platform.windows.events
      = before ++ o.session.windows.map .added := by
    have := Session.events_conclude hfresh l.state.platform a
    rw [hev, List.append_nil, ← ho] at this
    rw [hanswer]
    exact this
  have hverdict : (l.verdict? (.answer i a)).toList = [(k, o.failure)] := by
    simp [verdict?, hw, hs, ho, Session.failure_conclude, hsink]
  rw [hverdict, herrands, hevents, List.nil_append]
  refine ⟨_, ?_, rfl⟩
  rcases Session.conclude_of_isFresh hfresh l.state.platform a with hup | ⟨f, hfail⟩
  · rw [← ho] at hup
    obtain ⟨id, hid⟩ := hup.up.covered
    simp only [Worker.errands, hup.failure, hup.delivered, hid]
    exact .up (hup.sink.trans hsink) hid
  · rw [← ho] at hfail
    simp only [Worker.errands, hfail.failure, hfail.delivered, hfail.ended.windows_eq]
    rw [show o.session.sink = k from hfail.sink.trans hsink]
    exact .failed (hfail.sink.trans hsink)

/-- Off the presentation thread the engine may answer the attempt. -/
theorem offThread (hf : Flight before k heard verdicts got l) (hp : (l.take step).Paired)
    (hturn : l.turn? step = none) :
    Flight before k (heard ++ (l.termination? step).toList)
      (verdicts ++ (l.verdict? step).toList) (got ++ (l.outcome? step).toList) (l.take step) := by
  obtain ⟨platform, workers, heq⟩ := l.state_take hturn
  rw [termination?_offThread hturn, outcome?_offThread hturn, Option.toList_none,
    List.append_nil, List.append_nil]
  refine ⟨hp, by rw [heq]; exact hf.slot, ?_⟩
  by_cases hanswer : ∃ i a, step = .answer i a
  · obtain ⟨i, a, rfl⟩ := hanswer
    exact hf.answer i a
  · replace hanswer : ∀ i a, step ≠ .answer i a := fun i a h => hanswer ⟨i, a, h⟩
    obtain ⟨since, hc, hev⟩ := hf.course
    have hwindows : (l.take step).state.platform.windows.events
        = l.state.platform.windows.events := by
      rcases windows_offThread hturn hanswer with hw | hw <;> rw [hw]
      rfl
    rw [verdict?_of_ne hanswer, errands_offThread hf.running hturn hanswer, hwindows]
    exact ⟨since, by simpa using hc, hev⟩

/-- A turn that leaves the slot opening may have a termination held, or show the outcome of the
attempt. -/
theorem turn (hf : Flight before k heard verdicts got l) (hs : l.severs step = false)
    (ho : (l.take step).state.slot.phase = .opening) (hturn : l.turn? step = some (l', t)) :
    Flight before k (heard ++ (l.termination? step).toList)
      (verdicts ++ (l.verdict? step).toList) (got ++ (l.outcome? step).toList) (l.take step) := by
  have hp := hf.toPaired.take hs
  have hanswer : ∀ i a, step ≠ .answer i a := by
    rintro i a rfl
    simp [turn?] at hturn
  have hstate : (l.take step).state = t.host := by rw [take_turn hturn, land]
  rcases hf.toBalanced.turn_cases hturn with ⟨c, he, ht, -⟩ | ⟨hno, ht⟩
  · -- a submission is taken only after the outcome, and would come before the completion
    have hh := Paired.halved_eq_nil hturn hs (Paired.failed?_of_event he)
    have := hf.toPaired.pending_of_opening hh hf.phase
    simp [Host.free_of_takes ht] at this
  have hnot : (l.task? step).any HostTask.isOpened = false := by
    have := (Paired.opening_turn hturn hno).1
    rw [← hstate, ho, beq_self_eq_true, hf.phase, beq_self_eq_true, Bool.and_true] at this
    simpa using this.symm
  have hfailed : (l.task? step).bind HostTask.failed? = none := by
    rcases htask : l.task? step with _ | _ | _ | _ | _ <;> simp [htask, HostTask.isOpened] at hnot
    all_goals simp [HostTask.failed?]
  have hh := Paired.halved_eq_nil hturn hs hfailed
  obtain ⟨hheld, hposts⟩ := hold_turn hturn hf.not_live hno
    (fun _ => dispatching_ne_none hf.toPaired hh hf.phase) hnot
  have hlive : ∀ s, t.host.slot ≠ .live s := by
    intro s hlive
    simp [hstate, hlive, Slot.phase] at ho
  have herr := errands_hold hturn hf.not_live hlive ht.workers hposts hnot
  obtain ⟨since, hc, hev⟩ := hf.course
  refine ⟨hp, ?_, since, ?_, ?_⟩
  · rw [hstate, hheld, hf.slot, Slot.hold, List.head?_append]
    cases l.termination? step <;> rfl
  · rw [verdict?_of_ne hanswer, Option.toList_none, List.append_nil, outcome?]
    rcases hout : (l.task? step).bind HostTask.outcome? with _ | ⟨k', o⟩
    · rw [hout, Option.elim_none, zero_add] at herr
      simpa [herr] using hc
    · rw [hout, Option.elim_some, Multiset.singleton_add] at herr
      exact hc.present herr
  · -- no window goes, as the errands own the same windows as before
    have hids : (l.take step).state.platform.windows.ids.length
        = l.state.platform.windows.ids.length := by
      rw [← Multiset.coe_card, ← Multiset.coe_card, hf.accounts.windows, hp.accounts.windows,
        herr, Multiset.add_bind]
      rcases (l.task? step).bind HostTask.outcome? with _ | ⟨k', o⟩
      · simp
      · simp [Errand.windows]
    have hsheds := (sheds_turn hturn).1
    rw [← hstate] at hsheds
    rw [hsheds.eq_of_length hids.ge]
    exact hev

theorem take (hf : Flight before k heard verdicts got l) (hs : l.severs step = false)
    (ho : (l.take step).state.slot.phase = .opening) :
    Flight before k (heard ++ (l.termination? step).toList)
      (verdicts ++ (l.verdict? step).toList) (got ++ (l.outcome? step).toList) (l.take step) := by
  rcases hturn : l.turn? step with _ | ⟨l', t⟩
  · exact hf.offThread (hf.toPaired.take hs) hturn
  · exact hf.turn hs ho hturn

theorem takeAll (hf : Flight before k heard verdicts got l) {steps : List HostStep}
    (hs : ¬ Meets (fun l step => l.severs step = true) l steps)
    (ho : ∀ mid, mid <+: steps → (l.takeAll mid).state.slot.phase = .opening) :
    Flight before k (heard ++ l.terminations steps) (verdicts ++ l.verdicts steps)
      (got ++ l.outcomes steps) (l.takeAll steps) := by
  induction steps using List.reverseRecOn with
  | nil => simpa [terminations, HostLoop.verdicts, outcomes, collect] using hf
  | append_singleton steps step ih =>
    rw [meets_concat, not_or] at hs
    have hlast := ho (steps ++ [step]) (List.prefix_refl _)
    rw [takeAll_concat] at hlast ⊢
    have hbefore := ih hs.1 fun mid hm => ho mid (hm.trans (List.prefix_append _ _))
    have := hbefore.take (by simpa using hs.2) hlast
    simpa only [terminations, HostLoop.verdicts, outcomes, collect_concat, List.append_assoc]
      using this

end Flight

/-- A submission is taken when nothing is under way, and starts an attempt. -/
theorem Paired.launch (hp : l.Paired) {c : Credentials} (hs : l.severs step = false)
    (hc : l.submission? step = some c) :
    Flight l.state.platform.windows.events l.attempts [] [] [] (l.take step)
      ∧ (l.take step).state.shown.phase = .opening := by
  obtain ⟨he, htakes⟩ := submission?_eq_some.1 hc
  obtain ⟨l', hturn⟩ := turn?_of_event he
  have hfree := Host.free_of_takes htakes
  have hh := halved_eq_nil hturn hs (failed?_of_event he)
  have hnone := hp.none_under_way fun hslot => by
    simp [hp.pending_of_opening hh hslot] at hfree
  have hquiet : (l.queue.tasks : Multiset HostTask).bind HostTask.errands = 0 := by
    obtain ⟨-, hcarries, -⟩ := (hfree ▸ hp.accounts).idle
    refine Multiset.eq_zero_of_forall_notMem fun e hmem => ?_
    obtain ⟨task, htask, he⟩ := Multiset.mem_bind.1 hmem
    obtain ⟨s, rfl⟩ := Errand.exists_of_not_carries (hcarries e (mem_errands_of_task htask he))
    have := List.countP_eq_zero.1 hnone.2 task htask
    cases task <;> simp [HostTask.errands, HostTask.isOpened] at he this
  rcases hp.toBalanced.turn_cases hturn with ⟨c', -, -, hl, hposts⟩ | ⟨hno, -⟩
  swap
  · simp [hno c he] at htakes
  have hstate : (l.take step).state = (l.state.handle (.loginClicked c)).2.host := by
    rw [take_turn hturn, land]
  have hqueue : (l.take step).queue.tasks <:+ l.queue.tasks := by
    rw [take_turn hturn, land, TaskQueue.postAll_tasks, hposts]
    simp only [ite_self, List.append_nil]
    exact tasks_turn hturn ▸ List.suffix_append _ _
  refine ⟨⟨hp.take hs, ?_, [], ?_, ?_⟩, ?_⟩
  · rw [hstate, hl.slot]
    rfl
  · have herr : (l.take step).errands = {.opening l.state.newSession} := by
      have hq : ((l.take step).queue.tasks : Multiset HostTask).bind HostTask.errands = 0 := by
        refine Multiset.eq_zero_of_forall_notMem fun e hmem => ?_
        obtain ⟨task, htask, he⟩ := Multiset.mem_bind.1 hmem
        have : e ∈ (l.queue.tasks : Multiset HostTask).bind HostTask.errands :=
          Multiset.mem_bind.2 ⟨task, hqueue.subset htask, he⟩
        simp [hquiet] at this
      rw [errands, hq, hstate, hl.slot, hl.workers, hnone.1]
      simp [Slot.errands, Worker.errands]
    rw [herr]
    exact .asked rfl
  · rw [hstate, hl.platform, List.append_nil]
    rfl
  · rw [hstate]
    exact hl.phase

end HostLoop

namespace Errand

def outcome? : Errand → Option Outcome
  | sent _ o => some o
  | _ => none

end Errand

theorem HostTask.coe_outcomes (tasks : List HostTask) :
    ((tasks.filterMap outcome?).map (·.2) : Multiset Outcome)
      = ((tasks : Multiset HostTask).bind errands).filterMap Errand.outcome? := by
  have hhead : ∀ task : HostTask, task.errands.filterMap Errand.outcome?
      = ((task.outcome?.map (·.2)).toList : Multiset Outcome) := by
    rintro (_ | _ | _ | ⟨s, _ | f, c⟩) <;> rfl
  induction tasks with
  | nil => rfl
  | cons task tasks ih =>
    rw [← Multiset.cons_coe, Multiset.cons_bind, Multiset.filterMap_add, ← ih, hhead]
    rcases h : task.outcome? with _ | p <;> simp [h]

namespace HostLoop

variable {l l' : HostLoop} {t : Turn} {step : HostStep} {before : List WindowEvent} {k : Nat}
  {heard : List Outcome} {verdicts : List (Nat × Option Outcome)} {got : List Outcome}

/-- Without workers and without a live session, what waits for the form are the outcomes among the
errands. -/
theorem coe_queued (hw : l.state.workers = []) (hs : ∀ s, l.state.slot ≠ .live s) :
    (l.queued : Multiset Outcome) = l.errands.filterMap Errand.outcome? := by
  rw [queued, HostTask.coe_outcomes, errands, hw, Slot.errands_eq_zero.2 hs]
  simp

theorem queued_eq_nil (h : (l.queued : Multiset Outcome) = 0) : l.queued = [] :=
  Multiset.coe_eq_zero _ |>.1 h

theorem queued_eq_singleton {o : Outcome} (h : (l.queued : Multiset Outcome) = {o}) :
    l.queued = [o] :=
  List.perm_singleton.1 (Multiset.coe_eq_coe.1 h)

/-- What the completion of an attempt finds. -/
structure Flight.Completes (s : Session) (failure : Option Outcome) (c : Credentials)
    (l : HostLoop) : Prop where
  queue : ∃ rest, l.queue.tasks = .opened s failure c :: rest
  workers : l.state.workers = []
  errands : l.errands = .ofOpened s failure ::ₘ l.pop.errands
  queued : (l.pop.queued : Multiset Outcome) = l.pop.errands.filterMap Errand.outcome?

theorem Flight.completes (hf : Flight before k heard verdicts got l) {s : Session}
    {failure : Option Outcome} {c : Credentials} (hd : l.task? step = some (.opened s failure c)) :
    step = .runTask ∧ Flight.Completes s failure c l := by
  cases step with
  | runTask =>
    obtain ⟨rest, hq⟩ : ∃ rest, l.queue.tasks = .opened s failure c :: rest :=
      ⟨_, List.eq_cons_of_mem_head? hd⟩
    have hw : l.state.workers = [] := by
      have := hf.openings
      rw [HostLoop.openings, hq, hf.phase, List.countP_cons, HostTask.isOpened] at this
      simp only [if_true, beq_self_eq_true, Bool.toNat_true] at this
      exact List.length_eq_zero_iff.1 (by omega)
    refine ⟨rfl, ⟨rest, hq⟩, hw, ?_, coe_queued hw hf.not_live⟩
    rw [errands_pop hq, HostTask.errands, Multiset.singleton_add]
  | _ => simp [task?] at hd

/-- A session that is up is torn down when it completes, and the termination that was held is its
outcome. -/
theorem Flight.land_up (hf : Flight before k heard verdicts got l) {s : Session} {c : Credentials}
    (hc : Flight.Completes s none c l) {o : Outcome} (ho : heard.head? = some o) :
    verdicts = [(k, none)] ∧ ∃ id, (l.take .runTask).Paired →
      Landed (before ++ [.added id, .removed id]) o got (l.take .runTask) := by
  obtain ⟨rest, hq⟩ := hc.queue
  have hfits := hf.accounts.fits (.up s) (hc.errands ▸ Multiset.mem_cons_self _ _)
  have hids := (hc.errands ▸ hf.accounts : Accounts 0 (.up s ::ₘ l.pop.errands) _ _).ids_eq rfl
  obtain ⟨since, hcourse, hev⟩ := hf.course
  rcases hcourse.complete hc.errands with ⟨-, hsink, rfl, rfl, hrest, id, hid, rfl⟩ |
    ⟨f, hfail, -⟩
  swap
  · simp at hfail
  set t := Turn.accept { host := l.state } s c with ht
  have hplatform : t.host.platform = l.state.platform := Turn.platform_accept _ s c
  have hidle : t.host.slot = .idle := Turn.slot_accept _ s c
  have htake : l.take .runTask = l.pop.land {
      host := { t.host with platform := (s.teardown l.state.platform).2.2 }
      posts := [.outcome s.sink o] } := by
    rw [show l.take .runTask = l.runTask from rfl, runTask_cons hq, HostTask.turn,
      Turn.onOpened_of_opening (t := { host := l.state }) (ho ▸ hf.slot)]
    simp only [Turn.enterLive, Turn.finish_of_unsettled _ hfits.1.unsettled, ← ht, hplatform]
    rw [show t.posts = [] from (Turn.quiet_accept { host := l.state } s c).posts]
    rfl
  have hs : s.stage ≠ .tornDown := by simp [hfits.1.live]
  have hpop : l.pop.queued = [] := by
    refine queued_eq_nil ?_
    rw [hc.queued, hrest]
    rfl
  refine ⟨rfl, id, fun hp => ⟨hp, ?_, ?_, ?_, ?_⟩⟩
  · rw [htake]
    exact hidle
  · have : (l.take .runTask).queued = l.pop.queued ++ [o] := by
      have hg : l.pop.queue.gone = false := hf.running
      rw [htake, queued, land, TaskQueue.postAll_tasks, hg]
      simp [queued, HostTask.outcome?]
    rw [this, hpop]
    rfl
  · have hnone : (s.teardown l.state.platform).2.2.windows.ids = [] := by
      rw [Session.ids_teardown _ hs, hids]
      simp [Errand.windows]
    rw [htake]
    exact List.map_eq_nil_iff.1 hnone
  · have hmem : id ∈ l.state.platform.windows.ids := by simp [hids, Errand.windows, hid]
    have hremoved := Session.events_teardown hs hid hmem
    rw [hev, List.append_assoc] at hremoved
    rw [htake]
    exact hremoved

/-- An attempt that has failed leaves nothing behind but its own outcome, whatever was held. -/
theorem Flight.land_failed (hf : Flight before k heard verdicts got l) {s : Session} {f' : Outcome}
    {c : Credentials} (hc : Flight.Completes s (some f') c l) :
    ∃ f, verdicts = [(k, some f)] ∧ ((l.take .runTask).Paired →
      Landed before f got (l.take .runTask)) := by
  obtain ⟨rest, hq⟩ := hc.queue
  have hover := (hf.accounts.fits (.ended s) (hc.errands ▸ Multiset.mem_cons_self _ _)).1
  have haccounts := (hc.errands ▸ hf.accounts : Accounts 0 (.ended s ::ₘ l.pop.errands) _ _).discard
  obtain ⟨since, hcourse, hev⟩ := hf.course
  rcases hcourse.complete hc.errands with ⟨hnone, -⟩ | ⟨f, -, rfl, rfl, hleft⟩
  · simp at hnone
  set t := Turn.accept { host := l.state } s c with ht
  have hplatform : t.host.platform = l.state.platform := Turn.platform_accept _ s c
  have hidle : t.host.slot = .idle := Turn.slot_accept _ s c
  have htake : l.take .runTask = l.pop.land t := by
    rw [show l.take .runTask = l.runTask from rfl, runTask_cons hq, HostTask.turn,
      Turn.onOpened_of_opening (t := { host := l.state }) hf.slot]
    simp only [← ht, Turn.modify, hover.teardown_eq]
  have hqueued : (l.take .runTask).queued = l.pop.queued := by
    rw [htake, queued, land, TaskQueue.postAll_tasks,
      show t.posts = [] from (Turn.quiet_accept { host := l.state } s c).posts]
    simp [queued]
  have hids : l.state.platform.windows.ids = [] := by
    have hw := haccounts.windows
    rcases hleft with ⟨-, hrest⟩ | ⟨-, hrest⟩ <;>
      simpa [hrest, Errand.windows, Multiset.coe_eq_zero] using hw
  refine ⟨f, rfl, fun hp => ⟨hp, ?_, ?_, ?_, ?_⟩⟩
  · rw [htake]
    exact hidle
  · rw [hqueued]
    rcases hleft with ⟨rfl, hrest⟩ | ⟨rfl, hrest⟩
    · exact queued_eq_singleton (by rw [hc.queued, hrest]; rfl)
    · rw [queued_eq_nil (by rw [hc.queued, hrest]; rfl), List.append_nil]
  · rw [htake, land, hplatform]
    exact List.map_eq_nil_iff.1 hids
  · rw [htake, land, hplatform, hev, List.append_nil]

namespace Landed

variable {events : List WindowEvent} {x : Outcome}

theorem not_live (hl : Landed events x got l) (s : Session) : l.state.slot ≠ .live s := by
  simp [hl.slot]

theorem workers (hl : Landed events x got l) : l.state.workers = [] :=
  (hl.none_under_way (by simp [hl.slot, Slot.phase])).1

theorem answer_eq (hl : Landed events x got l) (i : Nat) (a : Answer) :
    l.take (.answer i a) = l ∧ l.verdict? (.answer i a) = none := by
  simp [HostLoop.take, HostLoop.answer, verdict?, hl.workers]

/-- A step that leaves the errands as they are, but for the outcome that it shows, and puts up no
window. -/
theorem next (hl : Landed events x got l) (hp : (l.take step).Paired)
    (hslot : (l.take step).state.slot = .idle)
    (herr : l.errands = ((l.task? step).bind HostTask.outcome?).elim 0 (fun p => {.sent p.1 p.2})
      + (l.take step).errands)
    (hwindows : (l.take step).state.platform.windows = l.state.platform.windows
      ∨ (l.take step).state.platform.windows = l.state.platform.windows.failNext) :
    Landed events x (got ++ (l.outcome? step).toList) (l.take step) := by
  refine ⟨hp, hslot, ?_, ?_, ?_⟩
  · have hw := (hp.none_under_way (by simp [hslot, Slot.phase])).1
    have hbefore := coe_queued hl.workers hl.not_live
    have hafter := coe_queued hw (by simp [hslot])
    -- lists of one outcome are equal if they are permutations of each other
    refine List.perm_singleton.1 (Multiset.coe_eq_coe.1 ?_)
    rw [← hl.outcome, List.append_assoc, ← Multiset.coe_add, ← Multiset.coe_add,
      ← Multiset.coe_add, hbefore, herr, Multiset.filterMap_add, ← hafter, outcome?]
    rcases (l.task? step).bind HostTask.outcome? with _ | ⟨k', o⟩ <;> rfl
  · rcases hwindows with h | h <;> rw [h] <;> exact hl.cleared
  · rcases hwindows with h | h <;> rw [h] <;> exact hl.events

/-- Nothing more comes of an attempt than its outcome. -/
theorem take (hl : Landed events x got l) (hs : l.severs step = false)
    (hn : l.submission? step = none) :
    Landed events x (got ++ (l.outcome? step).toList) (l.take step)
      ∧ l.verdict? step = none := by
  have hp := hl.toPaired.take hs
  by_cases hanswer : ∃ i a, step = .answer i a
  · obtain ⟨i, a, rfl⟩ := hanswer
    obtain ⟨heq, hverdict⟩ := hl.answer_eq i a
    rw [heq, outcome?_offThread rfl, Option.toList_none, List.append_nil]
    exact ⟨hl, hverdict⟩
  replace hanswer : ∀ i a, step ≠ .answer i a := fun i a h => hanswer ⟨i, a, h⟩
  refine ⟨?_, verdict?_of_ne hanswer⟩
  rcases hturn : l.turn? step with _ | ⟨l', t⟩
  · obtain ⟨platform, workers, heq⟩ := l.state_take hturn
    refine hl.next hp (by rw [heq]; exact hl.slot) ?_ (windows_offThread hturn hanswer)
    rw [task?_eq_none hturn, Option.bind_none, errands_offThread hl.running hturn hanswer,
      Option.elim_none, zero_add]
  · rcases hl.toBalanced.turn_cases hturn with ⟨c, he, ht, -⟩ | ⟨hno, ht⟩
    · simp [submission?_eq_some.2 ⟨he, ht⟩] at hn
    have hopened : (l.task? step).any HostTask.isOpened = false := by
      have hcount := (hl.none_under_way (by simp [hl.slot, Slot.phase])).2
      rw [(Paired.opening_turn hturn hno).2] at hcount
      simpa using (Nat.add_eq_zero_iff.1 hcount).2
    obtain ⟨hheld, hposts⟩ := hold_turn hturn hl.not_live hno (fun h => (h hl.slot).elim) hopened
    rw [hl.slot] at hheld
    have hslot : t.host.slot = .idle := hheld
    have hstate : (l.take step).state = t.host := by rw [take_turn hturn, land]
    refine hl.next hp (by rw [hstate, hslot]) ?_ (.inl ?_)
    · exact errands_hold hturn hl.not_live (by simp [hslot]) ht.workers hposts hopened
    · rw [hstate]
      refine (sheds_turn hturn).1.eq_of_length ?_
      simp [Windows.ids, hl.cleared]

theorem takeAll (hl : Landed events x got l) {steps : List HostStep}
    (hs : ¬ Meets (fun l step => l.severs step = true) l steps)
    (hn : ¬ Meets (fun l step => (l.submission? step).isSome = true) l steps) :
    Landed events x (got ++ l.outcomes steps) (l.takeAll steps) ∧ l.verdicts steps = [] := by
  induction steps using List.reverseRecOn with
  | nil => simpa [outcomes, HostLoop.verdicts, collect] using hl
  | append_singleton steps step ih =>
    rw [meets_concat, not_or] at hs hn
    obtain ⟨hlast, hnone⟩ := ih hs.1 hn.1
    obtain ⟨hnext, hverdict⟩ := hlast.take (by simpa using hs.2) (by simpa using hn.2)
    rw [HostLoop.verdicts] at hnone
    rw [takeAll_concat, outcomes, HostLoop.verdicts, collect_concat, collect_concat, hverdict,
      hnone, ← List.append_assoc]
    exact ⟨hnext, rfl⟩

end Landed

end HostLoop

end EngineShell
