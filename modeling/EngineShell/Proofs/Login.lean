import EngineShell.Login.Basic
import Mathlib.Tactic

/-!
# The form between submissions

Only a submission and an outcome touch the submission that waits. Everything else keeps it, and
keeps the form as open or as locked as it was, unless the fatal screen comes up
(`LoginFlow.Keeps`, `LoginFlow.Stays`); once it is up it stays.
-/

namespace EngineShell

namespace LoginFlow

@[simp] theorem shown_present (l : LoginFlow) (f : Presentation → Presentation) :
    (l.present f).board.shown = f l.board.shown := rfl

/-- Whether the form takes a submission. -/
def isOpen (l : LoginFlow) : Bool :=
  l.board.shown.form.submitEnabled

/-- A change that leaves the submission alone, and the form too unless it ends on the fatal
screen. -/
structure Keeps (l l' : LoginFlow) : Prop where
  pending : l'.pending = l.pending
  form : l'.isFatal = false → l.isFatal = false ∧ l'.isOpen = l.isOpen

theorem Keeps.refl (l : LoginFlow) : l.Keeps l :=
  ⟨rfl, fun h => ⟨h, rfl⟩⟩

theorem Keeps.trans {l l' l'' : LoginFlow} (h : l.Keeps l') (h' : l'.Keeps l'') : l.Keeps l'' where
  pending := h'.pending.trans h.pending
  form := fun hf =>
    ⟨(h.form (h'.form hf).1).1, (h'.form hf).2.trans (h.form (h'.form hf).1).2⟩

/-- A change that leaves the session's part of the presentation alone as well, unless it brings up
the fatal screen and closes that part. -/
structure Stays (l l' : LoginFlow) : Prop extends Keeps l l' where
  attached : l'.board.shown.overlayAttached = l.board.shown.overlayAttached
  screen : l'.isFatal = l.isFatal ∧ l'.board.shown.phase = l.board.shown.phase
    ∨ l.isFatal = false ∧ l'.isFatal = true ∧ l'.board.shown.phase = .closed

theorem Stays.refl (l : LoginFlow) : l.Stays l :=
  ⟨.refl l, rfl, .inl ⟨rfl, rfl⟩⟩

theorem Stays.trans {l l' l'' : LoginFlow} (h : l.Stays l') (h' : l'.Stays l'') : l.Stays l'' where
  toKeeps := h.toKeeps.trans h'.toKeeps
  attached := h'.attached.trans h.attached
  screen := by
    rcases h.screen with ⟨hf, hp⟩ | ⟨hf, hf', hp⟩ <;>
      rcases h'.screen with ⟨gf, gp⟩ | ⟨gf, gf', gp⟩
    · exact .inl ⟨gf.trans hf, gp.trans hp⟩
    · exact .inr ⟨hf ▸ gf, gf', gp⟩
    · exact .inr ⟨hf, gf.trans hf', gp.trans hp⟩
    · simp [hf'] at gf

theorem keeps_present (l : LoginFlow) {f : Presentation → Presentation}
    (hs : (f l.board.shown).screen = l.board.shown.screen)
    (hf : (f l.board.shown).form.submitEnabled = l.board.shown.form.submitEnabled) :
    l.Keeps (l.present f) := by
  refine ⟨rfl, fun h => ⟨?_, hf⟩⟩
  simpa [isFatal, Presentation.isFatal, Presentation.fatalMessage?, hs] using h

theorem stays_present (l : LoginFlow) {f : Presentation → Presentation}
    (hs : (f l.board.shown).screen = l.board.shown.screen)
    (hf : (f l.board.shown).form.submitEnabled = l.board.shown.form.submitEnabled)
    (hp : (f l.board.shown).phase = l.board.shown.phase)
    (ha : (f l.board.shown).overlayAttached = l.board.shown.overlayAttached) :
    l.Stays (l.present f) := by
  refine ⟨l.keeps_present hs hf, ha, .inl ⟨?_, hp⟩⟩
  simp [isFatal, Presentation.isFatal, Presentation.fatalMessage?, hs]

theorem isFatal_showFatal (l : LoginFlow) (m : String) : (l.showFatal m).isFatal = true := by
  unfold showFatal
  split_ifs with h
  · exact h
  · rfl

theorem pending_showFatal (l : LoginFlow) (m : String) : (l.showFatal m).pending = l.pending := by
  unfold showFatal
  split_ifs <;> rfl

/-- A fatal screen that is up keeps its message. -/
theorem fatalMessage_showFatal (l : LoginFlow) (m : String) :
    (l.showFatal m).board.shown.fatalMessage? = l.board.shown.fatalMessage?.or (some m) := by
  unfold showFatal isFatal Presentation.isFatal
  rcases h : l.board.shown.fatalMessage? with _ | m'
  · rfl
  · simp [h]

theorem keeps_showFatal (l : LoginFlow) (m : String) : l.Keeps (l.showFatal m) :=
  ⟨l.pending_showFatal m, fun h => by simp [isFatal_showFatal] at h⟩

theorem stays_showFatal (l : LoginFlow) (m : String) : l.Stays (l.showFatal m) := by
  refine ⟨l.keeps_showFatal m, ?_, ?_⟩
  · unfold showFatal
    split_ifs <;> rfl
  · unfold showFatal
    split_ifs with h
    · exact .inl ⟨rfl, rfl⟩
    · exact .inr ⟨by simpa using h, rfl, rfl⟩

theorem stays_edit (l : LoginFlow) (fields : Credentials) : l.Stays (l.edit fields) :=
  l.stays_present rfl rfl rfl rfl

theorem stays_start (l : LoginFlow) (saved : Option SavedRecord) (stored : Prefill) :
    l.Stays (l.start saved stored) := by
  unfold start
  split
  · exact l.stays_showFatal _
  · exact l.stays_edit _
  · split_ifs
    · exact .refl l
    · exact l.stays_present rfl rfl rfl rfl

theorem tap_snd (l : LoginFlow) (now : Nat) :
    (l.tap now).2 = if l.taps.fires now
      then ({ l with taps := {} }.count .fatal).showFatal Taps.triggeredError
      else { l with taps := (l.taps.tap now).2 } := by
  unfold tap Taps.tap
  cases l.taps.fires now <;> rfl

theorem fatalMessage_tap (l : LoginFlow) (now : Nat) :
    (l.tap now).2.board.shown.fatalMessage? = l.board.shown.fatalMessage?.or
      (if l.taps.fires now then some Taps.triggeredError else none) := by
  rw [tap_snd]
  split_ifs
  · exact fatalMessage_showFatal _ _
  · rw [Option.or_none]

theorem stays_tap (l : LoginFlow) (now : Nat) : l.Stays (l.tap now).2 := by
  rw [tap_snd]
  split_ifs
  · refine Stays.trans ?_ (stays_showFatal _ _)
    exact ⟨⟨rfl, fun h => ⟨h, rfl⟩⟩, rfl, .inl ⟨rfl, rfl⟩⟩
  · exact ⟨⟨rfl, fun h => ⟨h, rfl⟩⟩, rfl, .inl ⟨rfl, rfl⟩⟩

/-- A submission is taken by an open form that nothing waits for, and locks it. -/
theorem submit_eq_ok {l l' : LoginFlow} {c : Credentials} (h : l.submit c = .ok l') :
    (l.isFatal = false ∧ l.isPending = false ∧ l.isOpen = true)
      ∧ l'.pending = some c ∧ l'.isFatal = false ∧ l'.isOpen = false
        ∧ l'.board.shown.overlayAttached = l.board.shown.overlayAttached := by
  unfold submit at h
  split_ifs at h with hf hp
  cases h
  simp only [Bool.or_eq_true, Bool.not_eq_true', not_or, Bool.not_eq_false,
    Bool.not_eq_true] at hp hf
  exact ⟨⟨hf, hp.1, hp.2⟩, rfl, hf, rfl, rfl⟩

/-- While a submission waits, another one is refused. -/
theorem submit_of_pending {l : LoginFlow} (h : l.isPending = true) (c : Credentials) :
    l.submit c = .error (if l.isFatal then .fatal else .pending) := by
  unfold submit
  split_ifs with hf hopen
  · rfl
  · rfl
  · simp [h] at hopen

theorem onOutcome_of_fatal {l : LoginFlow} (h : l.isFatal = true) (o : Outcome) :
    l.onOutcome o = { l with pending := none } :=
  if_pos h

theorem onOutcome_of_not_fatal {l : LoginFlow} (h : l.isFatal = false) (o : Outcome) :
    l.onOutcome o = match o with
      | .success => { l with pending := none }.unlock none
      | .recoverable m => ({ l with pending := none }.count .recoverable).unlock (some m)
      | .fatal m => ({ l with pending := none }.count .fatal).showFatal m :=
  if_neg (by simpa [isFatal] using h)

theorem pending_onOutcome (l : LoginFlow) (o : Outcome) : (l.onOutcome o).pending = none := by
  cases h : l.isFatal
  · rw [onOutcome_of_not_fatal h]
    cases o with
    | fatal m => exact pending_showFatal _ _
    | _ => rfl
  · rw [onOutcome_of_fatal h]

/-- An outcome leaves the form open or the fatal screen up. -/
theorem isOpen_onOutcome (l : LoginFlow) (o : Outcome) (h : (l.onOutcome o).isFatal = false) :
    (l.onOutcome o).isOpen = true := by
  cases hf : l.isFatal
  · rw [onOutcome_of_not_fatal hf] at h ⊢
    cases o with
    | fatal m => simp [isFatal_showFatal] at h
    | _ => rfl
  · rw [onOutcome_of_fatal hf] at h
    exact absurd (hf.symm.trans h) (by simp)

end LoginFlow

end EngineShell
