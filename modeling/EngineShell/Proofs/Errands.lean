import EngineShell.Proofs.Accounts
import EngineShell.Proofs.Runs

/-!
# The errands of a host

Whatever is under way lies with a worker, in the queue or in the slot. `HostLoop.errands` collects
it from all three, so a worker that enters the engine or posts its results changes nothing
(`errands_enter`, `errands_deliver`, `errands_complete`).
-/

namespace EngineShell

/-- What a worker has under way. -/
def Worker.errands (w : Worker) : Multiset Errand :=
  match w.stage with
  | .ended failure none => {.ofOpened w.session failure}
  | .ended failure (some o) => {.sent w.session.sink o, .ofOpened w.session failure}
  | _ => {.opening w.session}

/-- What a task has under way. -/
def HostTask.errands : HostTask → Multiset Errand
  | outcome k o => {.sent k o}
  | opened s failure _ => {.ofOpened s failure}
  | _ => 0

/-- What the slot has under way. -/
def Slot.errands : Slot → Multiset Errand
  | live s => {.up s}
  | _ => 0

theorem Slot.errands_eq_zero {slot : Slot} : slot.errands = 0 ↔ ∀ s, slot ≠ .live s := by
  cases slot <;> simp [errands]

namespace TaskQueue

variable {τ : Type}

theorem tasks_post {q : TaskQueue τ} (h : q.gone = false) (t : τ) :
    (q.post t).tasks = q.tasks ++ [t] := by
  simp [post, h]

end TaskQueue

namespace HostLoop

/-- Everything that is under way. -/
def errands (l : HostLoop) : Multiset Errand :=
  l.state.slot.errands + (l.state.workers : Multiset Worker).bind Worker.errands
    + (l.queue.tasks : Multiset HostTask).bind HostTask.errands

theorem mem_errands_of_task {l : HostLoop} {t : HostTask} {e : Errand} (ht : t ∈ l.queue.tasks)
    (he : e ∈ t.errands) : e ∈ l.errands :=
  Multiset.mem_add.2 (.inr (Multiset.mem_bind.2 ⟨t, ht, he⟩))

theorem errands_queue {l l' : HostLoop} (hs : l'.state = l.state) {t : HostTask}
    (hq : (l'.queue.tasks : Multiset HostTask) = t ::ₘ (l.queue.tasks : Multiset HostTask)) :
    l'.errands = t.errands + l.errands := by
  rw [errands, errands, hs, hq, Multiset.cons_bind]
  abel

theorem errands_post {l : HostLoop} (h : l.queue.gone = false) (t : HostTask) :
    (l.post t).errands = t.errands + l.errands := by
  refine errands_queue (show (l.post t).state = l.state from rfl) ?_
  rw [show (l.post t).queue = l.queue.post t from rfl, TaskQueue.tasks_post h, Multiset.cons_coe,
    Multiset.coe_eq_coe]
  exact List.perm_append_singleton t l.queue.tasks

section Workers

variable {l : HostLoop} {i : Nat} {w : Worker}

theorem coe_set_workers (ws : List Worker) {i : Nat} (hi : i < ws.length) (w : Worker) :
    (ws.set i w : Multiset Worker) = w ::ₘ (ws.eraseIdx i : Multiset Worker) := by
  rw [List.set_eq_take_append_cons_drop, if_pos hi, List.eraseIdx_eq_take_drop_succ,
    Multiset.cons_coe, Multiset.coe_eq_coe]
  exact List.perm_middle

theorem coe_workers {ws : List Worker} {i : Nat} {w : Worker} (h : ws[i]? = some w) :
    (ws : Multiset Worker) = w ::ₘ (ws.eraseIdx i : Multiset Worker) := by
  obtain ⟨hi, rfl⟩ := List.getElem?_eq_some_iff.1 h
  rw [← coe_set_workers ws hi, List.set_getElem_self]

theorem errands_dropWorker (h : l.state.workers[i]? = some w) :
    l.errands = w.errands + (l.dropWorker i).errands := by
  rw [errands, coe_workers h, Multiset.cons_bind]
  simp only [errands, dropWorker, modify]
  abel

theorem errands_setWorker (h : l.state.workers[i]? = some w) (w' : Worker) :
    (l.setWorker i w').errands = w'.errands + (l.dropWorker i).errands := by
  obtain ⟨hi, -⟩ := List.getElem?_eq_some_iff.1 h
  simp only [errands, setWorker, dropWorker, modify]
  rw [coe_set_workers _ hi, Multiset.cons_bind]
  abel

theorem errands_enter (l : HostLoop) (i : Nat) : (l.enter i).errands = l.errands := by
  rcases l.enter_cases i with heq | ⟨w, hw, hs, heq⟩
  · rw [heq]
  · rw [heq]
    refine (errands_setWorker (l := l.modifyPlatform w.session.begin) hw _).trans ?_
    rw [errands_dropWorker hw]
    simp only [Worker.errands, hs]
    rfl

theorem errands_deliver (hg : l.queue.gone = false) (i : Nat) :
    (l.deliver i).errands = l.errands := by
  rcases l.deliver_cases i with heq | ⟨w, failure, o, hw, hs, heq⟩
  · rw [heq]
  · rw [heq]
    refine (errands_setWorker (l := l.post (.outcome w.session.sink o)) hw _).trans ?_
    rw [show (l.post (.outcome w.session.sink o)).dropWorker i
      = (l.dropWorker i).post (.outcome w.session.sink o) from rfl,
      errands_post (l := l.dropWorker i) hg, errands_dropWorker hw]
    simp only [Worker.errands, hs, HostTask.errands, Multiset.insert_eq_cons,
      Multiset.singleton_add, Multiset.cons_add]
    exact Multiset.cons_swap _ _ _

theorem errands_complete (hg : l.queue.gone = false) (i : Nat) :
    (l.complete i).errands = l.errands := by
  rcases l.complete_cases i with heq | ⟨w, failure, hw, hs, heq⟩
  · rw [heq]
  · rw [heq]
    refine (errands_post (l := l.dropWorker i) hg _).trans ?_
    rw [errands_dropWorker hw]
    simp only [Worker.errands, hs, HostTask.errands]

end Workers

theorem errands_command {l : HostLoop} (hg : l.queue.gone = false) (k : Nat) (c : Command) :
    (l.command k c).2.errands = l.errands := by
  rw [errands, errands, tasks_command hg, ← Multiset.coe_add, Multiset.add_bind]
  rcases (l.state.platform.apply k c).1.posted with _ | c' <;>
    simp [HostTask.errands, HostLoop.command, HostLoop.modifyPlatform, HostLoop.modify]

/-- Off the presentation thread errands change hands, and only the engine's answer changes them. -/
theorem errands_offThread {l : HostLoop} {step : HostStep} (hg : l.queue.gone = false)
    (h : l.turn? step = none) (hs : ∀ i a, step ≠ .answer i a) :
    (l.take step).errands = l.errands := by
  cases step with
  | handle e => simp [turn?] at h
  | runTask =>
    have hq : l.queue.tasks = [] := by simpa [turn?] using h
    rw [take, runTask_nil hq]
  | post e => exact (errands_post hg _).trans (zero_add _)
  | command k c => exact errands_command hg k c
  | enter i => exact l.errands_enter i
  | answer i a => exact (hs i a rfl).elim
  | deliver i => exact errands_deliver hg i
  | complete i => exact errands_complete hg i
  | _ => rfl

end HostLoop

end EngineShell
