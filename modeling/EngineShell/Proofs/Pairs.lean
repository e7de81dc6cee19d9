import EngineShell.Proofs.Attribution

/-!
# The two results of a failed attempt

An attempt to open that fails leaves two tasks behind, its outcome and its completion. In between
the form is free and the slot is still taken, so that a turn that comes between the two may use
the slot for another attempt. `BackToBack` says that a run processes the two back to back. In such
a run the slot is opening exactly as long as one attempt is under way, with a worker or in the
queue (`Paired`), and while it is opening a submission waits (`Paired.pending_of_opening`).
-/

namespace EngineShell

/-- The attempt whose failure a worker has still to report. -/
def Worker.failed? (w : Worker) : Option Nat :=
  match w.stage with
  | .ended (some _) _ => some w.session.sink
  | _ => none

def Worker.undelivered? (w : Worker) : Option Nat :=
  match w.stage with
  | .ended _ (some _) => some w.session.sink
  | _ => none

namespace HostTask

def isOpened : HostTask → Bool
  | opened .. => true
  | _ => false

def failed? : HostTask → Option Nat
  | opened s (some _) _ => some s.sink
  | _ => none

end HostTask

namespace Turn

theorem opening_terminate (t : Turn) (o : Outcome) :
    ((t.terminate o).host.slot.phase == .opening) = (t.host.slot.phase == .opening) := by
  unfold terminate
  split <;> rename_i hs <;> rw [hs]
  · rfl
  · rfl

/-- Only a submission makes the slot opening, and no event puts an end to that. -/
theorem opening_handle {h : Host} {e : HostEvent}
    (hno : ∀ c, e = .loginClicked c → h.takes = false) :
    ((handle { host := h } e).host.slot.phase == .opening) = (h.slot.phase == .opening) := by
  rcases handle_cases { host := h } e with q | ⟨t, q, heq⟩ | ⟨c, rfl, heq⟩
  · rw [q.host.phase]
  · rw [heq, opening_terminate, q.host.phase]
  · rw [heq, host_modify, Host.onLoginClicked_of_not_takes (hno c rfl)]

theorem opening_onCommand (h : Host) (c : Command) :
    (((onCommand { host := h } c).toOption.getD { host := h }).host.slot.phase == .opening)
      = (h.slot.phase == .opening) := by
  obtain ⟨t, q, heq | ⟨o, heq⟩⟩ := onCommand_cases { host := h } c
  · rw [heq, q.host.phase]
  · rw [heq, opening_terminate, q.host.phase]

theorem opening_onOpened (h : Host) (s : Session) (failure : Option Outcome) (c : Credentials) :
    ((onOpened { host := h } s failure c).host.slot.phase == .opening) = false := by
  by_cases hp : h.slot.phase = .opening
  · obtain ⟨held, hs⟩ := Slot.eq_opening hp
    have hidle := (quiet_accept { host := h } s c).host.phase
    rw [onOpened_of_opening (t := { host := h }) hs]
    rcases failure with _ | f
    · rcases held with _ | o
      · rfl
      · exact beq_eq_false_iff_ne.2 (hidle.trans_ne (by simp [Slot.phase]))
    · exact beq_eq_false_iff_ne.2 (hidle.trans_ne (by simp [Slot.phase]))
  · rw [onOpened_of_not_opening (t := { host := h }) hp]
    exact beq_eq_false_iff_ne.2 hp

end Turn

namespace HostLoop

/-- The attempts that have failed and whose completion is still to come while their outcome has
been shown. -/
def halved (l : HostLoop) : List Nat :=
  (l.state.workers.filterMap Worker.failed? ++ l.queue.tasks.filterMap HostTask.failed?).filter
    fun k => k ∉ l.state.workers.filterMap Worker.undelivered?
      ++ l.queue.tasks.filterMap fun t => t.outcome?.map (·.1)

/-- Whether a step is a turn that comes between the outcome of a failed attempt and its
completion. -/
def severs (l : HostLoop) (step : HostStep) : Bool :=
  (l.turn? step).isSome && l.halved.any fun k => (l.task? step).bind HostTask.failed? != some k

/-- A run processes the outcome and the completion of each failed attempt back to back: no turn
comes between the two, and the run does not end there. -/
def BackToBack (l : HostLoop) (steps : List HostStep) : Prop :=
  ¬ Meets (fun l step => l.severs step = true) l steps ∧ (l.takeAll steps).halved = []

instance (l : HostLoop) (steps : List HostStep) : Decidable (l.BackToBack steps) :=
  inferInstanceAs (Decidable (_ ∧ _))

/-- How many attempts to open are under way, with a worker or in the queue. -/
def openings (l : HostLoop) : Nat :=
  l.state.workers.length + l.queue.tasks.countP HostTask.isOpened

/-- No submission is lost, and the slot is opening exactly as long as one attempt is under way. -/
structure Paired (l : HostLoop) : Prop extends Balanced 0 l where
  openings : l.openings = (l.state.slot.phase == .opening).toNat

variable {lost : Nat} {l l' : HostLoop} {t : Turn} {step : HostStep}

/-- While no outcome waits anywhere, failed attempts are halved. -/
theorem Balanced.halved_ne_nil (hb : l.Balanced lost) (hs : l.state.slot.phase = .opening)
    (hp : l.state.login.isPending = false) : l.halved ≠ [] := by
  obtain ⟨-, hnone, -⟩ := (hp ▸ hb.accounts).idle
  obtain ⟨e, he, k, hk, -⟩ := hb.opening hs
  obtain ⟨s, rfl⟩ := Errand.exists_of_not_carries (hnone e he)
  have hfailed : s.sink ∈ l.state.workers.filterMap Worker.failed?
      ++ l.queue.tasks.filterMap HostTask.failed? := by
    rw [List.mem_append, List.mem_filterMap, List.mem_filterMap]
    simp only [errands, Multiset.mem_add, Multiset.mem_bind, Multiset.mem_coe] at he
    rcases he with (he | ⟨w, hw, he⟩) | ⟨task, htask, he⟩
    · cases hslot : l.state.slot <;> simp [hslot, Slot.errands] at he
    · refine .inl ⟨w, hw, ?_⟩
      rcases hstage : w.stage with _ | _ | ⟨_ | f, _ | o⟩ <;>
        simp [Worker.errands, hstage, Errand.ofOpened] at he <;>
        simp [Worker.failed?, hstage, he]
    · refine .inr ⟨task, htask, ?_⟩
      rcases task with _ | _ | _ | ⟨s', _ | f, c⟩ <;>
        simp [HostTask.errands, Errand.ofOpened] at he
      simp [HostTask.failed?, he]
  refine List.ne_nil_of_mem (List.mem_filter.2 ⟨hfailed, decide_eq_true ?_⟩)
  rw [List.mem_append, List.mem_filterMap, List.mem_filterMap]
  rintro (⟨w, hw, hu⟩ | ⟨task, htask, ho⟩)
  · rcases hstage : w.stage with _ | _ | ⟨failure, _ | o⟩ <;>
      simp [Worker.undelivered?, hstage] at hu
    have hsent : .sent w.session.sink o ∈ l.errands := by
      refine Multiset.mem_add.2 (.inl (Multiset.mem_add.2 (.inr ?_)))
      exact Multiset.mem_bind.2 ⟨w, hw, by simp [Worker.errands, hstage]⟩
    simpa using hnone _ hsent
  · obtain ⟨⟨k', o⟩, ho, -⟩ := Option.map_eq_some_iff.1 ho
    rw [HostTask.outcome?_eq_some] at ho
    subst ho
    simpa using hnone _ (mem_errands_of_task htask (Multiset.mem_singleton_self _))

namespace Paired

theorem none_under_way (hp : l.Paired) (hs : l.state.slot.phase ≠ .opening) :
    l.state.workers = [] ∧ l.queue.tasks.countP HostTask.isOpened = 0 := by
  have := hp.openings
  rw [HostLoop.openings, beq_eq_false_iff_ne.2 hs, Bool.toNat_false, Nat.add_eq_zero_iff] at this
  exact ⟨List.length_eq_zero_iff.1 this.1, this.2⟩

theorem opening_of_mem (hp : l.Paired) {s : Session} {failure : Option Outcome} {c : Credentials}
    (h : .opened s failure c ∈ l.queue.tasks) : l.state.slot.phase = .opening := by
  by_contra hs
  have := List.countP_eq_zero.1 (hp.none_under_way hs).2 _ h
  simp [HostTask.isOpened] at this

theorem not_abandons (hp : l.Paired) (step : HostStep) : l.abandons step = false := by
  by_contra h
  simp only [abandons, completes, Bool.not_eq_false, Bool.and_eq_true, Option.any_eq_true] at h
  obtain ⟨⟨task, htask, hcomp⟩, hs⟩ := h
  cases step with
  | runTask =>
    rcases task with _ | _ | _ | ⟨s, _ | f, c⟩ <;> simp [HostTask.isCompletion] at hcomp
    simp [hp.opening_of_mem (List.mem_of_head? htask)] at hs
  | _ => simp [task?] at htask

/-- While the slot is opening a submission waits, unless a failed attempt is halved. -/
theorem pending_of_opening (hp : l.Paired) (hh : l.halved = [])
    (hs : l.state.slot.phase = .opening) : l.state.login.isPending = true := by
  by_contra hn
  exact hp.toBalanced.halved_ne_nil hs (by simpa using hn) hh

theorem failed?_of_event {e : HostEvent} (h : l.event? step = some e) :
    (l.task? step).bind HostTask.failed? = none := by
  rcases task?_of_event h with htask | htask <;> rw [htask] <;> rfl

/-- A turn that runs no completion does not come between the results of a failed attempt. -/
theorem halved_eq_nil (h : l.turn? step = some (l', t)) (hs : l.severs step = false)
    (ht : (l.task? step).bind HostTask.failed? = none) : l.halved = [] := by
  simpa [severs, h, ht, List.any_eq_false, List.eq_nil_iff_forall_not_mem] using hs

theorem openings_post (hg : l.queue.gone = false) (task : HostTask) :
    (l.post task).openings = l.openings + task.isOpened.toNat := by
  have hq : (l.post task).queue.tasks = l.queue.tasks ++ [task] := TaskQueue.tasks_post hg task
  rw [HostLoop.openings, hq, List.countP_append, ← Nat.add_assoc]
  cases htask : task.isOpened <;> simp [htask, HostLoop.openings, HostLoop.post, Loop.post]

theorem openings_setWorker (l : HostLoop) (i : Nat) (w : Worker) :
    (l.setWorker i w).openings = l.openings := by
  simp [HostLoop.openings, setWorker, HostLoop.modify]

theorem openings_offThread (hg : l.queue.gone = false) (h : l.turn? step = none) :
    (l.take step).openings = l.openings := by
  cases step with
  | handle e => simp [turn?] at h
  | runTask =>
    have hq : l.queue.tasks = [] := by simpa [turn?] using h
    rw [HostLoop.take, runTask_nil hq]
  | post e => exact openings_post hg _
  | command k c =>
    rw [HostLoop.openings, HostLoop.take, tasks_command hg, List.countP_append]
    have hnone : ((l.state.platform.apply k c).1.posted.toList.map (HostTask.command k)).countP
        HostTask.isOpened = 0 := by
      rw [List.countP_eq_zero]
      simp [HostTask.isOpened]
    rw [hnone]
    rfl
  | enter i =>
    rcases l.enter_cases i with heq | ⟨w, -, -, heq⟩ <;> rw [HostLoop.take, heq]
    exact openings_setWorker _ i _
  | answer i a =>
    rcases l.answer_cases i a with heq | ⟨w, o, -, -, -, heq⟩ <;> rw [HostLoop.take, heq]
    exact openings_setWorker _ i _
  | deliver i =>
    rcases l.deliver_cases i with heq | ⟨w, failure, o, -, -, heq⟩ <;> rw [HostLoop.take, heq]
    rw [openings_setWorker, openings_post hg]
    rfl
  | complete i =>
    rcases l.complete_cases i with heq | ⟨w, failure, hw, -, heq⟩ <;> rw [HostLoop.take, heq]
    obtain ⟨hi, -⟩ := List.getElem?_eq_some_iff.1 hw
    rw [openings_post (l := l.dropWorker i) hg]
    simp only [HostLoop.openings, dropWorker, HostLoop.modify, List.length_eraseIdx, if_pos hi,
      HostTask.isOpened, Bool.toNat_true]
    omega
  | _ => rfl

theorem openings_land (l' : HostLoop) (hposts : ∀ p ∈ t.posts, ∃ k o, p = .outcome k o) :
    (l'.land t).openings
      = t.host.workers.length + l'.queue.tasks.countP HostTask.isOpened := by
  have hnone : (if l'.queue.gone then [] else t.posts).countP HostTask.isOpened = 0 := by
    rw [List.countP_eq_zero]
    intro p hp
    split_ifs at hp
    · simp at hp
    · obtain ⟨k, o, rfl⟩ := hposts p hp
      simp [HostTask.isOpened]
  rw [HostLoop.openings, land, TaskQueue.postAll_tasks, List.countP_append, hnone]
  rfl

/-- What a turn that starts no attempt does to the slot: a completion frees it, everything else
leaves it opening or not. -/
theorem opening_turn (h : l.turn? step = some (l', t))
    (hno : ∀ c, l.event? step = some (.loginClicked c) → l.state.takes = false) :
    (t.host.slot.phase == .opening)
        = (!(l.task? step).any HostTask.isOpened && l.state.slot.phase == .opening)
      ∧ l.queue.tasks.countP HostTask.isOpened
        = l'.queue.tasks.countP HostTask.isOpened
          + ((l.task? step).any HostTask.isOpened).toNat := by
  refine ⟨?_, ?_⟩
  · cases turnOf h with
    | event e he =>
      have hopened : (l.task? step).any HostTask.isOpened = false := by
        rcases task?_of_event he with htask | htask <;> rw [htask] <;> rfl
      obtain ⟨seen, hseen⟩ := l.state.handle_eq e
      rw [hseen, hopened, Bool.not_false, Bool.true_and]
      exact Turn.opening_handle fun c hc => hno c (hc ▸ he)
    | command k c rest hq =>
      rw [task?, hq]
      exact Turn.opening_onCommand l.state c
    | outcome k o rest hq =>
      rw [task?, hq]
      rfl
    | opened s failure c rest hq =>
      rw [task?, hq]
      exact Turn.opening_onOpened l.state s failure c
  · rw [tasks_turn h, List.countP_append, Nat.add_comm]
    congr 1
    rcases l.task? step with _ | task
    · rfl
    · cases ht : task.isOpened <;> simp [ht]

theorem take (hp : l.Paired) (hs : l.severs step = false) : (l.take step).Paired := by
  have hb := hp.toBalanced.take step
  rw [hp.not_abandons step] at hb
  refine ⟨hb, ?_⟩
  rcases hturn : l.turn? step with _ | ⟨l', t⟩
  · obtain ⟨platform, workers, heq⟩ := l.state_take hturn
    rw [openings_offThread hp.running hturn, hp.openings, heq]
  · rcases hp.toBalanced.turn_cases hturn with ⟨c, he, ht, hl, hposts⟩ | ⟨hno, ht⟩
    · have htask := failed?_of_event he
      -- the slot that the attempt takes is free, as nothing of an earlier attempt is under way
      have hfree : l.state.slot.phase ≠ .opening := by
        intro hslot
        have := hp.pending_of_opening (halved_eq_nil hturn hs htask) hslot
        simp [Host.free_of_takes ht] at this
      obtain ⟨hw, hzero⟩ := hp.none_under_way hfree
      have hq : l'.queue.tasks.countP HostTask.isOpened
          ≤ l.queue.tasks.countP HostTask.isOpened := by
        rw [tasks_turn hturn]
        exact (List.sublist_append_right _ _).countP_le
      have hnone := Nat.le_zero.1 (hq.trans_eq hzero)
      rw [take_turn hturn, openings_land l' (by simp [hposts]), hl.workers, hw, hnone,
        show (l'.land t).state.slot = .opening none from hl.slot]
      rfl
    · obtain ⟨hslot, hcount⟩ := opening_turn hturn hno
      have hold := hp.openings
      rw [HostLoop.openings, hcount] at hold
      rw [take_turn hturn, openings_land l' ht.posts, ht.workers,
        show (l'.land t).state.slot = t.host.slot from rfl, hslot]
      cases hany : (l.task? step).any HostTask.isOpened
      · rw [hany] at hold
        exact hold
      · have := (l.state.slot.phase == .opening).toNat_le
        simp only [hany, Bool.toNat_true, Bool.not_true, Bool.false_and, Bool.toNat_false] at hold ⊢
        omega

end Paired

theorem paired_takeAll {s : HostSetup} {l₀ : HostLoop} (h₀ : s.start = .ok l₀)
    {steps : List HostStep} (hs : ¬ Meets (fun l step => l.severs step = true) l₀ steps) :
    (l₀.takeAll steps).Paired := by
  induction steps using List.reverseRecOn with
  | nil =>
    have hb := balanced_start h₀
    obtain ⟨layout, rfl⟩ := start_eq h₀
    exact ⟨hb, rfl⟩
  | append_singleton steps step ih =>
    rw [meets_concat, not_or] at hs
    rw [takeAll_concat]
    exact (ih hs.1).take (by simpa using hs.2)

end HostLoop

end EngineShell
