import EngineShell.Proofs.Balance

/-!
# Submissions get their outcome

Once a host has come to rest, its form is free again or the fatal screen is up, unless a step of
the run has abandoned a submission (`answered_iff`). That takes two submissions: the completion of
a refused attempt uses up the slot of the next one, whose own completion then finds no slot
(`abandoned_overtaken`).
-/

namespace EngineShell

namespace HostLoop

/-- Nothing waits, no worker works, and no session is live. -/
def AtRest (l : HostLoop) : Prop :=
  l.queue.tasks = [] ∧ l.state.workers = [] ∧ l.state.isLive = false

instance (l : HostLoop) : Decidable l.AtRest :=
  inferInstanceAs (Decidable (_ ∧ _ ∧ _))

/-- No submission waits, and the form takes one or the fatal screen is up. -/
def Answered (l : HostLoop) : Prop :=
  l.state.login.pending = none ∧ (l.state.submitEnabled = true ∨ l.state.login.isFatal = true)

instance (l : HostLoop) : Decidable l.Answered :=
  inferInstanceAs (Decidable (_ ∧ (_ ∨ _)))

variable {lost : Nat} {l : HostLoop}

theorem AtRest.errands_eq (hr : l.AtRest) : l.errands = 0 := by
  obtain ⟨hq, hw, hl⟩ := hr
  have hs : l.state.slot.errands = 0 := by
    refine Slot.errands_eq_zero.2 fun s hs => ?_
    simp [Host.isLive, hs, Slot.phase] at hl
  rw [errands, hq, hw, hs]
  rfl

/-- At rest the slot is idle, and a submission waits only if it is lost. -/
theorem Balanced.atRest (hb : l.Balanced lost) (hr : l.AtRest) :
    l.state.slot = .idle ∧ lost = l.state.login.isPending.toNat := by
  have he := hr.errands_eq
  refine ⟨?_, ?_⟩
  · rcases hslot : l.state.slot with _ | held | s
    · rfl
    · obtain ⟨e, hmem, -⟩ := hb.opening (by rw [hslot]; rfl)
      simp [he] at hmem
    · have := hr.2.2
      simp [Host.isLive, hslot, Slot.phase] at this
  · have := hb.accounts.carried
    rwa [he, Errand.carriers_zero, Nat.zero_add] at this

theorem Balanced.answered_iff_eq_zero (hb : l.Balanced lost) (hr : l.AtRest) :
    l.Answered ↔ lost = 0 := by
  obtain ⟨-, hlost⟩ := hb.atRest hr
  rw [hlost]
  constructor
  · rintro ⟨hp, -⟩
    simp [LoginFlow.isPending, hp]
  · intro h
    have hp : l.state.login.isPending = false := by simpa using h
    refine ⟨by simpa [LoginFlow.isPending] using hp, ?_⟩
    cases hf : l.state.login.isFatal
    · left
      have := hb.form hf
      rwa [hp] at this
    · exact .inr rfl

/-- A host that has come to rest has answered every submission, exactly if no step of its run has
completed a session that was up while no slot was open for it. -/
theorem answered_iff {s : HostSetup} {l₀ : HostLoop} (h₀ : s.start = .ok l₀)
    (steps : List HostStep) (hr : (l₀.takeAll steps).AtRest) :
    (l₀.takeAll steps).Answered ↔ ¬ Meets (fun l step => l.abandons step = true) l₀ steps := by
  obtain ⟨lost, hb, hlost⟩ := balanced_takeAll (balanced_start h₀) steps
  rw [hb.answered_iff_eq_zero hr, hlost]

/-- A run in which a second submission comes between the outcome of the first and its
completion. -/
def overtaken : List HostStep :=
  [.handle .create, .handle (.loginClicked {}), .enter 0, .answer 0 (.rejected "busy"), .deliver 0,
    .complete 0, .runTask, .handle (.loginClicked {}), .runTask, .enter 0, .answer 0 .accepted,
    .complete 0, .runTask]

/-- The second submission of such a run is never answered, as its session was abandoned. -/
theorem abandoned_overtaken : ((of {}).takeAll overtaken).AtRest
    ∧ ¬ ((of {}).takeAll overtaken).Answered
      ∧ Meets (fun l step => l.abandons step = true) (of {}) overtaken := by
  have h₀ : HostSetup.start {} = .ok (of {}) := rfl
  have hr : ((of {}).takeAll overtaken).AtRest := by decide +kernel
  have hna : ¬ ((of {}).takeAll overtaken).Answered := by decide +kernel
  exact ⟨hr, hna, not_not.1 fun h => hna ((answered_iff h₀ _ hr).2 h)⟩

end HostLoop

end EngineShell
