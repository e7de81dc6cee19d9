import EngineShell.Proofs.Flights
import EngineShell.Proofs.Mirror

/-!
# Sessions that end before they are up

A termination that is met while the engine still opens a session is held. If the engine takes the
session, its window goes up and down again, and the first termination that was held is its only
outcome; no such session is ever shown as live. If the attempt fails, its own failure is the
outcome, and what was held is forgotten (`holds_takeAll`).
-/

namespace EngineShell

theorem Host.Quiet.live {h h' : Host} (q : h.Quiet h') (hlive : h'.shown.phase = .live) :
    h.shown.phase = .live := by
  rcases q.login.screen with ⟨-, hsame⟩ | ⟨-, -, hclosed⟩
  · exact hsame.symm.trans hlive
  · exact absurd (hclosed.symm.trans hlive) (by simp)

namespace Turn

theorem live_handle {h : Host} (hn : h.login.isPending = false → ∀ s, h.slot ≠ .live s)
    {e : HostEvent} (hlive : (h.handle e).2.host.shown.phase = .live) : h.shown.phase = .live := by
  obtain ⟨seen, hseen⟩ := h.handle_eq e
  replace hlive : (handle { host := h } e).host.shown.phase = .live := by
    rw [hseen] at hlive
    exact hlive
  rcases handle_cases { host := h } e with q | ⟨t, q, heq⟩ | ⟨c, -, heq⟩
  · exact q.host.live hlive
  · rw [heq, phase_terminate] at hlive
    exact q.host.live hlive
  · rw [heq, host_modify] at hlive
    cases ht : h.takes
    · rwa [Host.onLoginClicked_of_not_takes ht] at hlive
    · have hl := Host.launches_onLoginClicked ht (hn (Host.free_of_takes ht)) c
      exact absurd (hl.phase.symm.trans hlive) (by simp)

theorem live_onCommand {h : Host} {c : Command} (hlive : ((onCommand { host := h } c).toOption.getD
    { host := h }).host.shown.phase = .live) : h.shown.phase = .live := by
  obtain ⟨t, q, heq | ⟨o, heq⟩⟩ := onCommand_cases { host := h } c
  · exact q.host.live (heq ▸ hlive)
  · rw [heq, phase_terminate] at hlive
    exact q.host.live hlive

theorem live_onOutcome {h : Host} {o : Outcome}
    (hlive : (onOutcome { host := h } o).host.shown.phase = .live) : h.shown.phase = .live := by
  replace hlive : (h.login.onOutcome o).board.shown.phase = .live := hlive
  cases hf : h.login.isFatal
  · simp [LoginFlow.phase_onOutcome hf] at hlive
  · rwa [LoginFlow.onOutcome_of_fatal hf] at hlive

/-- A completion shows a session as live if it makes it live. -/
theorem live_onOpened {h : Host} {s : Session} {failure : Option Outcome} {c : Credentials}
    (hlive : (onOpened { host := h } s failure c).host.shown.phase = .live) :
    h.shown.phase = .live ∨ (onOpened { host := h } s failure c).host.slot.phase = .live := by
  by_cases hp : h.slot.phase = .opening
  · obtain ⟨held, hs⟩ := Slot.eq_opening hp
    have hsame : (accept { host := h } s c).host.shown.phase = h.shown.phase := by
      rw [Host.shown, Host.shown, login_accept]
    rw [onOpened_of_opening (t := { host := h }) hs] at hlive ⊢
    rcases failure with _ | f
    · rcases held with _ | o
      · exact .inr rfl
      · exact .inl (hsame.symm.trans hlive)
    · exact .inl (hsame.symm.trans hlive)
  · rw [onOpened_of_not_opening (t := { host := h }) hp] at hlive
    exact .inl hlive

end Turn

namespace HostLoop

variable {lost : Nat} {l l' : HostLoop} {t : Turn} {step : HostStep}

/-- A session comes to be shown as live when it goes live, and at no other time. -/
theorem live_take (hb : l.Balanced lost) (hlive : (l.take step).state.shown.phase = .live) :
    l.state.shown.phase = .live ∨ (l.take step).state.slot.phase = .live := by
  have hn := fun hp => (hb.rest hp).1
  rcases hturn : l.turn? step with _ | ⟨l', t⟩
  · obtain ⟨platform, workers, heq⟩ := l.state_take hturn
    rw [heq] at hlive
    exact .inl hlive
  rw [take_turn hturn] at hlive ⊢
  cases turnOf hturn with
  | event e => exact .inl (Turn.live_handle hn hlive)
  | command k c => exact .inl (Turn.live_onCommand hlive)
  | outcome k o => exact .inl (Turn.live_onOutcome hlive)
  | opened s failure c => exact Turn.live_onOpened hlive

/-- No session appears in a run: none goes live, none is shown or published as live or attached,
and the engine is told nothing. -/
structure Unseen (l : HostLoop) (steps : List HostStep) : Prop where
  slot : ∀ mid, mid <+: steps → (l.takeAll mid).state.slot.phase ≠ .live
  phases : ∃ news, (l.takeAll steps).state.login.board.phases
    = l.state.login.board.phases ++ news ∧ .live ∉ news
  attachments : (l.takeAll steps).state.login.board.attachments
    = l.state.login.board.attachments
  reports : (l.takeAll steps).state.platform.engine.reports = l.state.platform.engine.reports

/-- A run in which no session appears may go on as long as none goes live. -/
theorem Unseen.concat {steps : List HostStep} (hu : l.Unseen steps)
    (hb : (l.takeAll steps).Balanced lost)
    (ha : (l.takeAll steps).state.shown.overlayAttached = (l.takeAll steps).state.isLive)
    (ha' : (l.takeAll (steps ++ [step])).state.shown.overlayAttached
      = (l.takeAll (steps ++ [step])).state.isLive)
    (hs : (l.takeAll (steps ++ [step])).state.slot.phase ≠ .live) :
    l.Unseen (steps ++ [step]) := by
  have hslot : ∀ mid, mid <+: steps ++ [step] → (l.takeAll mid).state.slot.phase ≠ .live := by
    intro mid hm
    rcases List.prefix_concat_iff.1 hm with rfl | hm
    · exact hs
    · exact hu.slot mid hm
  have hold := hu.slot steps (List.prefix_refl _)
  obtain ⟨-, ⟨news, hnews, hnone⟩, hattachments, hreports⟩ := hu
  rw [takeAll_concat] at ha' hs
  have hplain := plain_take (l.takeAll steps) step
  set l₁ := l.takeAll steps with hl₁
  have hattached : l₁.state.login.board.shown.overlayAttached
      = (l₁.take step).state.login.board.shown.overlayAttached := by
    refine ha.trans (Eq.trans ?_ ha'.symm)
    rw [Host.isLive, Host.isLive, beq_false_of_ne hold, beq_false_of_ne hs]
  refine ⟨hslot, ?_, ?_, ?_⟩ <;> rw [takeAll_concat, ← hl₁]
  · rw [hplain.phases, hnews]
    split_ifs with hsame
    · exact ⟨news, by simp, hnone⟩
    · refine ⟨_, List.append_assoc _ _ _, ?_⟩
      rw [List.mem_append, List.mem_singleton, not_or]
      refine ⟨hnone, fun hlive => ?_⟩
      rcases live_take hb hlive.symm with h | h
      · exact hsame (h.trans hlive)
      · exact hs h
  · rw [hplain.attachments, if_pos hattached, List.append_nil, hattachments]
  · rw [reports_take, hreports]
    · rintro s hlive
      simp [hlive, Slot.phase] at hold
    · rintro s hlive
      simp [hlive, Slot.phase] at hs

theorem unseen_takeAll {s : HostSetup} {l₀ : HostLoop} (h₀ : s.start = .ok l₀)
    {before steps : List HostStep}
    (hs : ∀ mid, mid <+: steps → ((l₀.takeAll before).takeAll mid).state.slot.phase ≠ .live) :
    (l₀.takeAll before).Unseen steps := by
  induction steps using List.reverseRecOn with
  | nil => exact ⟨hs, ⟨[], by simp⟩, rfl, rfl⟩
  | append_singleton steps step ih =>
    obtain ⟨lost, hb, -⟩ := balanced_takeAll (balanced_start h₀) (before ++ steps)
    obtain ⟨late, hshows, -⟩ := shows_takeAll h₀ (before ++ steps)
    obtain ⟨late', hshows', -⟩ := shows_takeAll h₀ (before ++ (steps ++ [step]))
    rw [takeAll_append] at hb hshows hshows'
    exact (ih fun mid hm => hs mid (hm.trans (List.prefix_append _ _))).concat hb hshows.attached
      hshows'.attached (hs _ (List.prefix_refl _))

/-- The completion of an attempt leaves its failure as its outcome, or else the termination that was
held first. -/
theorem Flight.land {before : List WindowEvent} {k : Nat} {heard : List Outcome}
    {verdicts : List (Nat × Option Outcome)} {got : List Outcome}
    (hf : Flight before k heard verdicts got l) (hs : l.severs step = false)
    (hd : (l.task? step).any HostTask.isOpened = true) {o : Outcome} (ho : heard.head? = some o) :
    l.outcome? step = none ∧ l.verdict? step = none
      ∧ ∃ verdict since, verdicts = [(k, verdict)]
        ∧ Landed (before ++ since) (verdict.getD o) got (l.take step)
        ∧ (verdict = none → ∃ id, since = [.added id, .removed id]) := by
  obtain ⟨task, htask, hopened⟩ := Option.any_eq_true _ _ |>.1 hd
  rcases task with _ | _ | _ | ⟨s, failure, c⟩ <;> simp [HostTask.isOpened] at hopened
  obtain ⟨rfl, hc⟩ := hf.completes htask
  have hp := hf.toPaired.take hs
  refine ⟨by rw [outcome?, htask]; rfl, rfl, ?_⟩
  rcases failure with _ | f
  · obtain ⟨hverdicts, id, hland⟩ := hf.land_up hc ho
    exact ⟨none, _, hverdicts, hland hp, fun _ => ⟨id, rfl⟩⟩
  · obtain ⟨f, hverdicts, hland⟩ := hf.land_failed hc
    exact ⟨some f, [], hverdicts, (List.append_nil before).symm ▸ hland hp, by simp⟩

end HostLoop

/-- A part of a run: the step that takes a submission, those up to the completion of the attempt,
that completion, and what comes after it. -/
structure Attempt where
  click : HostStep
  during : List HostStep
  done : HostStep
  after : List HostStep

namespace Attempt

open HostLoop

def steps (a : Attempt) : List HostStep :=
  a.click :: (a.during ++ a.done :: a.after)

/-- The outcomes of the terminations that are met while the slot is opening. -/
def terminations (a : Attempt) (l : HostLoop) : List Outcome :=
  (l.take a.click).terminations a.during

/-- The attempt is the only one of its part of a run: the slot is opening from its submission to
its completion, and no other submission is taken. -/
structure Runs (a : Attempt) (l : HostLoop) : Prop where
  submitted : (l.submission? a.click).isSome = true
  opening : ∀ mid, mid <+: a.during → ((l.take a.click).takeAll mid).state.slot.phase = .opening
  completed : (((l.take a.click).takeAll a.during).task? a.done).any HostTask.isOpened = true
  alone : ¬ Meets (fun l step => (l.submission? step).isSome = true)
    (((l.take a.click).takeAll a.during).take a.done) a.after

/-- What comes of an attempt for which `o` was held: the engine answers it once, the form gets its
failure or else `o` and nothing besides, a window that went up has gone down, and no session
appears. -/
structure Holds (a : Attempt) (l : HostLoop) (o : Outcome) (failure : Option Outcome) : Prop where
  answered : l.verdicts a.steps = [(l.attempts, failure)]
  outcome : l.outcomes a.steps ++ (l.takeAll a.steps).queued = [failure.getD o]
  window : failure = none → ∃ id, (l.takeAll a.steps).state.platform.windows.events
    = l.state.platform.windows.events ++ [.added id, .removed id]
  unseen : l.Unseen a.steps

theorem takeAll_done (a : Attempt) (l : HostLoop) (steps : List HostStep) :
    l.takeAll (a.click :: (a.during ++ a.done :: steps))
      = (((l.take a.click).takeAll a.during).take a.done).takeAll steps := by
  rw [← List.singleton_append, takeAll_append, takeAll_append]
  rfl

/-- The parts of an attempt's steps. -/
theorem prefix_cases {a : Attempt} {mid : List HostStep} (h : mid <+: a.steps) : mid = []
    ∨ (∃ mid', mid' <+: a.during ∧ mid = a.click :: mid')
      ∨ ∃ mid', mid' <+: a.after ∧ mid = a.click :: (a.during ++ a.done :: mid') := by
  rcases mid with _ | ⟨click, mid⟩
  · exact .inl rfl
  obtain ⟨rfl, hmid⟩ := List.cons_prefix_cons.1 h
  rcases List.prefix_or_prefix_of_prefix hmid (List.prefix_append _ _) with hd | ⟨rest, rfl⟩
  · exact .inr (.inl ⟨mid, hd, rfl⟩)
  · rw [List.prefix_append_right_inj] at hmid
    rcases rest with _ | ⟨done, rest⟩
    · exact .inr (.inl ⟨a.during, List.prefix_refl _, by simp⟩)
    · obtain ⟨rfl, hrest⟩ := List.cons_prefix_cons.1 hmid
      exact .inr (.inr ⟨rest, hrest, rfl⟩)

/-- In every run that processes the outcome and the completion of each failed attempt back to back,
an attempt holds the first of the terminations that are met while it is opening. -/
theorem holds_takeAll {s : HostSetup} {l₀ : HostLoop} (h₀ : s.start = .ok l₀)
    {before : List HostStep} {a : Attempt}
    (hs : ¬ Meets (fun l step => l.severs step = true) l₀ (before ++ a.steps))
    (ha : a.Runs (l₀.takeAll before)) {o : Outcome}
    (ho : (a.terminations (l₀.takeAll before)).head? = some o) :
    ∃ failure, a.Holds (l₀.takeAll before) o failure := by
  rw [steps, meets_append, not_or, meets_cons, not_or, meets_append, not_or, meets_cons,
    not_or] at hs
  obtain ⟨hs₀, hs₁, hs₂, hs₃, hs₄⟩ := hs
  have hp := paired_takeAll h₀ hs₀
  have hunseen : (∀ mid, mid <+: a.steps → _) → (l₀.takeAll before).Unseen a.steps :=
    unseen_takeAll h₀
  generalize l₀.takeAll before = l at *
  obtain ⟨c, hc⟩ := Option.isSome_iff_exists.1 ha.submitted
  -- the attempt starts, is under way, and lands
  have hstart := (hp.launch (by simpa using hs₁) hc).1
  have hflight := hstart.takeAll hs₂ ha.opening
  rw [List.nil_append, List.nil_append, List.nil_append] at hflight
  obtain ⟨hout, hverdict, failure, since, hverdicts, hland, hwindows⟩ :=
    hflight.land (by simpa using hs₃) ha.completed ho
  obtain ⟨hend, hnone⟩ := hland.takeAll hs₄ ha.alone
  obtain ⟨he, htakes⟩ := submission?_eq_some.1 hc
  obtain ⟨hout₁, hverdict₁⟩ := outcome?_of_event he
  refine ⟨failure, ?_, ?_, fun hf => ?_, hunseen fun mid hm => ?_⟩
  · rw [HostLoop.verdicts, steps, collect, collect_append, collect, hverdict₁, hverdict]
    rw [HostLoop.verdicts] at hverdicts hnone
    simp [hverdicts, hnone]
  · have hall : l.outcomes a.steps = (l.take a.click).outcomes a.during
        ++ (((l.take a.click).takeAll a.during).take a.done).outcomes a.after := by
      rw [outcomes, steps, collect, collect_append, collect, hout₁, hout]
      rfl
    rw [hall, steps, takeAll_done]
    exact hend.outcome
  · obtain ⟨id, rfl⟩ := hwindows hf
    rw [steps, takeAll_done]
    exact ⟨id, hend.events⟩
  · rcases prefix_cases hm with rfl | ⟨mid, hmid, rfl⟩ | ⟨mid, hmid, rfl⟩
    · intro hlive
      have hfree := (hp.toBalanced.rest (Host.free_of_takes htakes)).1
      cases hslot : l.state.slot <;> simp [hslot, Slot.phase] at hlive
      exact hfree _ hslot
    · simp [show (l.takeAll (a.click :: mid)).state.slot.phase = _ from ha.opening mid hmid]
    · have hs := mt (Meets.mono · hmid) hs₄
      have hn := mt (Meets.mono · hmid) ha.alone
      rw [takeAll_done, (hland.takeAll hs hn).1.slot]
      simp [Slot.phase]

/-- An attempt that a command and the Back button end while it opens, before the engine takes
it. -/
def hasty : Attempt where
  click := .handle (.loginClicked {})
  during := [.enter 0, .command 0 (.of .setTitle "maps"), .runTask,
    .command 0 (.of .recoverableTermination "busy"), .runTask, .handle .backPressed,
    .answer 0 .accepted, .complete 0]
  done := .runTask
  after := [.runTask]

/-- The engine takes such an attempt, which ends as the command says. -/
theorem holds_hasty : hasty.terminations ((of {}).takeAll [.handle .create])
      = [.recoverable "busy", .success]
    ∧ hasty.Holds ((of {}).takeAll [.handle .create]) (.recoverable "busy") none := by
  have h₀ : HostSetup.start {} = .ok (of {}) := rfl
  have hs : ¬ Meets (fun l step => l.severs step = true) (of {})
      ([.handle .create] ++ hasty.steps) := by decide +kernel
  have hopening : ∀ mid ∈ hasty.during.inits, ((((of {}).takeAll [.handle .create]).take
      hasty.click).takeAll mid).state.slot.phase = .opening := by decide +kernel
  have ha : hasty.Runs ((of {}).takeAll [.handle .create]) :=
    ⟨by decide +kernel, fun mid hm => hopening mid ((List.mem_inits _ _).2 hm), by decide +kernel,
      by decide +kernel⟩
  have hheard : hasty.terminations ((of {}).takeAll [.handle .create])
      = [.recoverable "busy", .success] := by decide +kernel
  have hanswered : ((of {}).takeAll [.handle .create]).verdicts hasty.steps = [(0, none)] := by
    decide +kernel
  obtain ⟨failure, h⟩ := holds_takeAll h₀ hs ha (o := .recoverable "busy") (by rw [hheard]; rfl)
  have hfailure := congrArg (List.map Prod.snd) h.answered
  obtain rfl : none = failure := by simpa [hanswered] using hfailure
  exact ⟨hheard, h⟩

end Attempt

end EngineShell
