import EngineShell.Proofs.Balance
import EngineShell.Proofs.Forms

/-!
# Settled hosts

A host says that it is settled when no submission waits and its slot is idle. It looks neither at
its workers nor at its queue, and both may still hold something. But all that is left there are
the results of failed attempts (`Balanced.stage_of_free`), so that the display is clear and every
sink is closed (`settled_takeAll`).
-/

namespace EngineShell

/-- While no submission waits, no session owns a window. -/
theorem Accounts.ids_of_free {lost : Nat} {errands : Multiset Errand} {p : Platform}
    (h : Accounts lost errands p false) : p.windows.ids = [] := by
  obtain ⟨-, hnone, -⟩ := h.idle
  have hw := h.windows
  rwa [Accounts.bind_windows h.fits hnone, Multiset.coe_eq_zero] at hw

namespace HostLoop

variable {lost : Nat} {l : HostLoop}

/-- While no submission waits, all that a worker has to do is to report a failure. -/
theorem Balanced.stage_of_free (hb : l.Balanced lost) (hp : l.state.login.isPending = false)
    {w : Worker} (hw : w ∈ l.state.workers) : ∃ failure, w.stage = .ended (some failure) none := by
  obtain ⟨-, hnone, -⟩ := (hp ▸ hb.accounts).idle
  have hcarries : ∀ e ∈ w.errands, e.carries = false := fun e he =>
    hnone e (Multiset.mem_add.2 (.inl (Multiset.mem_add.2
      (.inr (Multiset.mem_bind.2 ⟨w, Multiset.mem_coe.2 hw, he⟩)))))
  rcases hstage : w.stage with _ | _ | ⟨_ | f, _ | o⟩ <;>
    simp [Worker.errands, hstage, Errand.ofOpened] at hcarries ⊢

/-- Nothing of a session is left where the host does not look. -/
structure Settled (l : HostLoop) : Prop where
  attached : l.state.platform.windows.attached = []
  /-- The engine has answered whatever it was asked, and nobody is about to ask it. -/
  answered : ∀ w ∈ l.state.workers, w.stage ≠ .starting ∧ w.stage ≠ .opening
  closed : ∀ sink ∈ l.state.platform.sinks, sink.closed = true
  form : l.state.login.isFatal = true
    ∨ l.state.submitEnabled = true ∧ l.state.shown.form.progressVisible = false

theorem Balanced.settled (hb : l.Balanced lost) (hp : l.state.login.isPending = false)
    (ha : l.state.shown.Agrees l.state.login.isPending) : l.Settled where
  attached := List.map_eq_nil_iff.1 (hp ▸ hb.accounts).ids_of_free
  answered := by
    intro w hw
    obtain ⟨failure, hstage⟩ := hb.stage_of_free hp hw
    simp [hstage]
  closed := Platform.closed_of_not_isOpen (hp ▸ hb.accounts).idle.2.2
  form := by
    cases hf : l.state.login.isFatal
    · have hopen := ha.isOpen hf
      have hprogress := ha.progress hf
      rw [hp] at hopen hprogress
      exact .inr ⟨hopen, hprogress⟩
    · exact .inl rfl

/-- Whenever a host that is not about to exit says that it is settled, no window is up, the engine
is opening nothing, every sink is closed, and the form is free or the fatal screen is up. -/
theorem settled_takeAll {s : HostSetup} {l₀ : HostLoop} (h₀ : s.start = .ok l₀)
    (steps : List HostStep) (hs : (l₀.takeAll steps).state.isSettled = true)
    (he : (l₀.takeAll steps).state.exitRequested = false) : (l₀.takeAll steps).Settled := by
  obtain ⟨lost, hb, -⟩ := balanced_takeAll (balanced_start h₀) steps
  refine hb.settled ?_ (agrees_takeAll h₀ steps)
  simp only [Host.isSettled, he, Bool.false_or, Bool.and_eq_true, Bool.not_eq_true'] at hs
  exact hs.1.2

/-- A run in which a second submission comes between the outcome of the first and its completion,
and fails as well before it is completed. -/
def crossed : List HostStep :=
  [.handle .create, .handle (.loginClicked {}), .enter 0, .answer 0 (.rejected "busy"), .deliver 0,
    .complete 0, .runTask, .handle (.loginClicked {}), .runTask, .enter 0,
    .answer 0 (.rejected "busy"), .deliver 0, .runTask]

/-- At the end of such a run the host says that it is settled, while the second attempt has still
to be completed. -/
theorem settled_crossed : ((of {}).takeAll crossed).state.isSettled = true
    ∧ ((of {}).takeAll crossed).state.workers.length = 1 ∧ ((of {}).takeAll crossed).attempts = 2
      ∧ ((of {}).takeAll crossed).Settled := by
  have h₀ : HostSetup.start {} = .ok (of {}) := rfl
  have hs : ((of {}).takeAll crossed).state.isSettled = true := by decide +kernel
  have he : ((of {}).takeAll crossed).state.exitRequested = false := by decide +kernel
  exact ⟨hs, by decide +kernel, by decide +kernel, settled_takeAll h₀ crossed hs he⟩

end HostLoop

end EngineShell
