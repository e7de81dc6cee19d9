import EngineShell.Proofs.Departures

/-!
# What extra handlers find

Extra handlers run behind the host's own, and each finds what the one before it has left
(`Hooks.found`). When the host is destroyed they should find no overlay on the display. They do,
unless a session is up that the host has not heard of yet: its worker has put up the window, and
the completion that will take it down still waits (`bare_iff_not_arriving`).
-/

namespace EngineShell

namespace Hooks

variable {σ : Type}

/-- What each handler for an event finds, in the order in which they run. -/
def found (hooks : Hooks σ) (s : σ) (e : HostEvent) : List σ :=
  ((hooks.handlers e.kind).scanl (fun s handler => handler s e) s).dropLast

end Hooks

namespace Host

/-- A handler that puts up no window. -/
def ShedsWindows (handler : Turn → HostEvent → Turn) : Prop :=
  ∀ (t : Turn) (e : HostEvent), t.host.platform.windows.Sheds (handler t e).host.platform.windows

theorem shedsWindows_observer (label : String) : ShedsWindows (observer label) :=
  fun t _ => .refl t.host.platform.windows

/-- The host's own handlers, and extra ones behind them. -/
def extended (extra : List (EventKind × (Turn → HostEvent → Turn))) : Hooks Turn :=
  extra.foldl (fun hooks x => hooks.on x.1 x.2) standardHooks

/-- Observers are extra handlers. -/
theorem hooks_eq_extended (h : Host) :
    h.hooks = extended (h.observers.map fun o => (o.1, observer o.2)) := by
  simp [hooks, extended, List.foldl_map]

theorem handlers_extended (extra : List (EventKind × (Turn → HostEvent → Turn)))
    (kind : EventKind) : (extended extra).handlers kind
      = Turn.handle :: (extra.filter fun x => x.1 == kind).map (·.2) := by
  refine (Hooks.handlers_foldl_on (fun handler => handler) extra _ kind).trans ?_
  cases kind <;> rfl

theorem sheds_of_mem_scanl {e : HostEvent} {handlers : List (Turn → HostEvent → Turn)}
    (h : ∀ handler ∈ handlers, ShedsWindows handler) {t t' : Turn}
    (ht : t' ∈ handlers.scanl (fun t handler => handler t e) t) :
    t.host.platform.windows.Sheds t'.host.platform.windows := by
  induction handlers generalizing t with
  | nil =>
    obtain rfl : t' = t := by simpa using ht
    exact .refl _
  | cons handler handlers ih =>
    rw [List.scanl_cons] at ht
    rw [List.forall_mem_cons] at h
    rcases List.mem_cons.1 ht with rfl | ht
    · exact .refl _
    · exact (h.1 t e).trans (ih h.2 ht)

/-- Extra handlers that put up no window find none, exactly if the host's own handler leaves
none. -/
theorem forall_found_iff {extra : List (EventKind × (Turn → HostEvent → Turn))} {e : HostEvent}
    {t : Turn} (hsheds : ∀ x ∈ extra, ShedsWindows x.2) (hkind : ∃ x ∈ extra, x.1 = e.kind) :
    (∀ t' ∈ ((extended extra).found t e).tail, t'.host.platform.windows.attached = [])
      ↔ (t.handle e).host.platform.windows.attached = [] := by
  set handlers := (extra.filter fun x => x.1 == e.kind).map (·.2) with hdef
  have hhandlers : ∀ handler ∈ handlers, ShedsWindows handler := by
    intro handler hmem
    obtain ⟨x, hx, rfl⟩ := List.mem_map.1 hmem
    exact hsheds x (List.mem_of_mem_filter hx)
  have hne : handlers ≠ [] := by
    obtain ⟨x, hx, hk⟩ := hkind
    exact List.ne_nil_of_mem (List.mem_map_of_mem (List.mem_filter.2 ⟨hx, by simpa using hk⟩))
  have hfound : ((extended extra).found t e).tail
      = (handlers.scanl (fun t handler => handler t e) (t.handle e)).dropLast := by
    rw [Hooks.found, handlers_extended, List.scanl_cons, ← hdef,
      List.dropLast_cons_of_ne_nil (by simp), List.tail_cons]
  rw [hfound]
  constructor
  · intro h
    obtain ⟨handler, rest, hcons⟩ := List.exists_cons_of_ne_nil hne
    refine h _ ?_
    rw [hcons, List.scanl_cons, List.dropLast_cons_of_ne_nil (by simp)]
    exact List.mem_cons_self
  · intro h t' ht'
    have hlen := (sheds_of_mem_scanl hhandlers (List.mem_of_mem_dropLast ht')).length_ids_le
    rw [Windows.ids, Windows.ids, h, List.map_nil, List.length_nil, List.length_map] at hlen
    exact List.eq_nil_of_length_eq_zero (Nat.le_zero.1 hlen)

end Host

namespace HostLoop

variable {lost : Nat} {l : HostLoop}

/-- The display is bare exactly while no session is up. -/
theorem Balanced.attached_eq_nil_iff (hb : l.Balanced lost) :
    l.state.platform.windows.attached = [] ↔ ∀ s, .up s ∉ l.errands := by
  constructor
  · intro h s hs
    obtain ⟨rest, hrest⟩ := Multiset.exists_cons_of_mem hs
    have hids := (hrest ▸ hb.accounts).ids_eq (e := .up s) rfl
    obtain ⟨id, hid⟩ := (hb.accounts.fits _ hs).1.covered
    simp [Windows.ids, h, hid] at hids
  · intro h
    by_contra hne
    obtain ⟨p, hp⟩ := List.exists_mem_of_ne_nil _ hne
    obtain ⟨s, hs, -⟩ := hb.accounts.exists_up (List.mem_map_of_mem hp)
    exact h s hs

end HostLoop

/-- Whether the worker's session is up. -/
def Worker.isUp (w : Worker) : Bool :=
  match w.stage with
  | .ended none _ => true
  | _ => false

theorem Worker.isUp_iff {w : Worker} : w.isUp = true ↔ ∃ s, .up s ∈ w.errands := by
  unfold isUp errands Errand.ofOpened
  rcases w.stage with _ | _ | ⟨_ | f, _ | o⟩ <;> simp

theorem HostTask.isCompletion_iff {task : HostTask} :
    task.isCompletion = true ↔ ∃ s c, task = .opened s none c := by
  unfold isCompletion
  split <;> simp_all

namespace HostLoop

variable {lost : Nat} {l : HostLoop}

/-- Whether a session is up whose completion the host has not processed. -/
def isArriving (l : HostLoop) : Bool :=
  l.state.workers.any Worker.isUp || l.queue.tasks.any HostTask.isCompletion

theorem isArriving_iff : l.isArriving = true ↔ ∃ s, (∃ w ∈ l.state.workers, .up s ∈ w.errands)
    ∨ ∃ c, .opened s none c ∈ l.queue.tasks := by
  simp only [isArriving, Bool.or_eq_true, List.any_eq_true, Worker.isUp_iff,
    HostTask.isCompletion_iff]
  constructor
  · rintro (⟨w, hw, s, hs⟩ | ⟨task, ht, s, c, rfl⟩)
    · exact ⟨s, .inl ⟨w, hw, hs⟩⟩
    · exact ⟨s, .inr ⟨c, ht⟩⟩
  · rintro ⟨s, ⟨w, hw, hs⟩ | ⟨c, hc⟩⟩
    · exact .inl ⟨w, hw, s, hs⟩
    · exact .inr ⟨_, hc, s, c, rfl⟩

/-- The destruction of a host ends the session that is live, and no other one. -/
theorem Balanced.up_destroyed (hb : l.Balanced lost) :
    (∃ s, .up s ∈ (l.handle .destroy).2.errands) ↔ l.isArriving = true := by
  have hlive : ∀ s, (l.land (l.state.handle .destroy).2).state.slot ≠ .live s :=
    (Host.Departed.of_destroy l.state).not_live
  have hsteady : Turn.Steady l.state (l.state.handle .destroy).2 := by
    rcases Turn.steady_handle (fun hp => (hb.rest hp).1) .destroy with ⟨c, h, -⟩ | ⟨-, hs⟩
    · cases h
    · exact hs
  -- the turn leaves the workers alone, and posts nothing but outcomes
  simp only [up_mem_errands, isArriving_iff, handle_snd]
  refine exists_congr fun s => ?_
  rw [or_iff_right (hlive s)]
  refine or_congr ?_ (exists_congr fun c => ⟨fun h => ?_, fun h => ?_⟩)
  · rw [show (l.land _).state.workers = l.state.workers from hsteady.workers]
  · rcases mem_land h with h | h
    · exact h
    · obtain ⟨k, o, heq⟩ := hsteady.posts _ h
      cases heq
  · rw [land, TaskQueue.postAll_tasks]
    exact List.mem_append_left _ h

theorem Balanced.attached_destroy (hb : l.Balanced lost) :
    (Turn.handle { host := l.state } .destroy).host.platform.windows.attached = []
      ↔ l.isArriving = false := by
  have hiff := (hb.handle .destroy).attached_eq_nil_iff
  rw [← not_exists, hb.up_destroyed, Bool.not_eq_true, handle_snd] at hiff
  obtain ⟨seen, hseen⟩ := l.state.handle_eq .destroy
  rwa [hseen] at hiff

/-- When the host is destroyed, extra handlers find no window on the display exactly if no session
is up whose completion the host has not processed. -/
theorem bare_iff_not_arriving {s : HostSetup} {l₀ : HostLoop} (h₀ : s.start = .ok l₀)
    (steps : List HostStep) {extra : List (EventKind × (Turn → HostEvent → Turn))}
    (hsheds : ∀ x ∈ extra, Host.ShedsWindows x.2) (hkind : ∃ x ∈ extra, x.1 = .destroy) :
    (∀ t ∈ ((Host.extended extra).found { host := (l₀.takeAll steps).state } .destroy).tail,
        t.host.platform.windows.attached = [])
      ↔ (l₀.takeAll steps).isArriving = false := by
  obtain ⟨lost, hb, -⟩ := balanced_takeAll (balanced_start h₀) steps
  exact (Host.forall_found_iff (e := .destroy) hsheds hkind).trans hb.attached_destroy

/-- A run up to the point where a session is up, and its completion waits in the queue. -/
def arriving : List HostStep :=
  [.handle .create, .handle (.loginClicked {}), .enter 0, .answer 0 .accepted, .complete 0]

/-- A host whose destruction is observed. -/
def watched : HostSetup where
  observers := [(.destroy, "late")]

/-- The observer finds a window if the host is destroyed after such a run, and none if it is one
task later. -/
theorem bare_arriving :
    (∃ t ∈ (((of watched).takeAll arriving).state.hooks.found
        { host := ((of watched).takeAll arriving).state } .destroy).tail,
      t.host.platform.windows.attached ≠ [])
    ∧ ∀ t ∈ (((of watched).takeAll (arriving ++ [.runTask])).state.hooks.found
        { host := ((of watched).takeAll (arriving ++ [.runTask])).state } .destroy).tail,
      t.host.platform.windows.attached = [] := by
  have h₀ : watched.start = .ok (of watched) := rfl
  have hhooks : ∀ steps, ((of watched).takeAll steps).state.observers = [(.destroy, "late")] →
      ((of watched).takeAll steps).state.hooks
        = Host.extended [(.destroy, Host.observer "late")] := by
    intro steps hobs
    rw [Host.hooks_eq_extended, hobs]
    rfl
  have hsheds : ∀ x ∈ [(EventKind.destroy, Host.observer "late")], Host.ShedsWindows x.2 := by
    simpa using Host.shedsWindows_observer "late"
  have hkind : ∃ x ∈ [(EventKind.destroy, Host.observer "late")], x.1 = .destroy :=
    ⟨_, List.mem_singleton_self _, rfl⟩
  rw [hhooks _ (by decide +kernel), hhooks _ (by decide +kernel)]
  refine ⟨?_, (bare_iff_not_arriving h₀ _ hsheds hkind).2 (by decide +kernel)⟩
  by_contra! hbare
  exact absurd ((bare_iff_not_arriving h₀ _ hsheds hkind).1 hbare) (by decide +kernel)

end HostLoop

end EngineShell
