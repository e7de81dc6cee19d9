import EngineShell.Proofs.Files
import EngineShell.Proofs.Runs
import EngineShell.Proofs.Turns

/-!
# A fatal record over a run

A host that starts from a fatal record shows its message once it is created, launches nothing, and
keeps the record, unless something happens before that: a save writes what the form shows, and the
fatal screen may come up with another message (`keeps_iff`).
-/

namespace EngineShell

namespace LoginFlow

theorem isFatal_of_message {l : LoginFlow} {m : String}
    (h : l.board.shown.fatalMessage? = some m) : l.isFatal = true := by
  simp [isFatal, Presentation.isFatal, h]

end LoginFlow

namespace Host

variable {h h' : Host} {m : String}

/-- The record is fatal, and once the host is created its message is showing. -/
def Keeps (m : String) (h : Host) : Prop :=
  h.restored = some (.fatal m) ∧ (h.created = true → h.shown.fatalMessage? = some m)

/-- A host that keeps a fatal record, and has launched nothing. -/
structure Barred (m : String) (h : Host) : Prop where
  keeps : h.Keeps m
  slot : h.slot = .idle
  workers : h.workers = []
  sinks : h.platform.sinks = []

/-- Whether an event replaces a fatal record, or what it will show. -/
def replaces (m : String) (h : Host) : HostEvent → Bool
  | .saveState => h.login.save != .fatal m
  | .create => !h.created && (h.shown.fatalMessage?.any (· != m))
  | _ => false

/-- What the host would save reads as it was written. In memory it always does. -/
def Rereads (h : Host) : Prop :=
  h.dataDir.isSome = true → SavedRecord.ofText? h.login.save.toText = some h.login.save

theorem restored_eq (h : Host) : h.restored = match h.dataDir with
    | none => h.saved
    | some dir => dir.record? h.disk := rfl

/-- A save writes what the form shows. -/
theorem restored_onSaveState {r : SavedRecord} (hr : h.restored = some r) (hread : h.Rereads) :
    h.onSaveState.restored = some h.login.save := by
  rw [restored_eq] at hr ⊢
  rcases hd : h.dataDir with _ | dir
  · simp [onSaveState, hd]
  · rw [hd] at hr
    obtain ⟨d', hd'⟩ := DataDir.exists_saveRecord hr h.login.save
    have := DataDir.record_saveRecord hd'
    rw [hread (by simp [hd])] at this
    simpa only [onSaveState, hd, hd', Except.toOption, Option.getD_some] using this

namespace Barred

theorem move (hb : h.Barred m) (hr : h'.restored = h.restored) (hs : h'.slot = h.slot)
    (hw : h'.workers = h.workers) (hk : h'.platform.sinks = h.platform.sinks)
    (hm : h'.created = true → h'.shown.fatalMessage? = some m) : h'.Barred m :=
  ⟨⟨hr.trans hb.keeps.1, hm⟩, hs.trans hb.slot, hw.trans hb.workers, hk.trans hb.sinks⟩

theorem onCreate (hb : h.Barred m) (he : h.replaces m .create = false) : h.onCreate.Barred m := by
  unfold Host.onCreate
  split_ifs with hc
  · exact hb
  · refine hb.move rfl rfl rfl rfl fun _ => ?_
    have hstart : h.login.start h.restored h.prefill = h.login.showFatal m := by
      rw [hb.keeps.1]
      rfl
    show (h.login.start h.restored h.prefill).board.shown.fatalMessage? = some m
    rw [hstart, LoginFlow.fatalMessage_showFatal]
    simp only [replaces, hc, Bool.not_false, Bool.true_and, shown] at he
    rcases hf : h.login.board.shown.fatalMessage? with _ | m'
    · rfl
    · simpa [hf] using he

theorem not_keeps_onCreate (hb : h.Barred m) (he : h.replaces m .create = true) :
    ¬ h.onCreate.Keeps m := by
  simp only [replaces, Bool.and_eq_true, Bool.not_eq_true', Option.any_eq_true, bne_iff_ne] at he
  obtain ⟨hc, m', hm, hne⟩ := he
  have hstart : h.login.start h.restored h.prefill = h.login.showFatal m := by
    rw [hb.keeps.1]
    rfl
  have hshown : h.onCreate.shown.fatalMessage? = some m' := by
    rw [Host.onCreate, if_neg (by simp [hc])]
    show (h.login.start h.restored h.prefill).board.shown.fatalMessage? = some m'
    rw [hstart, LoginFlow.fatalMessage_showFatal,
      show h.login.board.shown.fatalMessage? = _ from hm]
    rfl
  rintro ⟨-, hk⟩
  have := hk (by simp [Host.onCreate, hc])
  rw [hshown] at this
  exact hne (Option.some_inj.1 this)

theorem onSaveState (hb : h.Barred m) (he : h.replaces m .saveState = false)
    (hread : h.Rereads) :
    h.onSaveState.Barred m := by
  have hsave : h.login.save = .fatal m := by simpa [replaces] using he
  have hr := restored_onSaveState hb.keeps.1 hread
  exact ⟨⟨hr.trans (congrArg some hsave), hb.keeps.2⟩, hb.slot, hb.workers, hb.sinks⟩

theorem not_takes (hb : h.Barred m) : h.takes = false := by
  unfold takes
  cases hc : h.created
  · rfl
  · have := LoginFlow.isFatal_of_message (hb.keeps.2 hc)
    simp [this]

theorem not_keeps_onSaveState (hb : h.Barred m) (he : h.replaces m .saveState = true)
    (hread : h.Rereads) :
    ¬ h.onSaveState.Keeps m := by
  rintro ⟨hk, -⟩
  rw [restored_onSaveState hb.keeps.1 hread] at hk
  simp [replaces, Option.some_inj.1 hk] at he

theorem handle (hb : h.Barred m) {e : HostEvent} (he : h.replaces m e = false)
    (hread : e = .saveState → h.Rereads) :
    (h.handle e).2.host.Barred m ∧ (h.handle e).2.posts = [] := by
  have ht : (Turn.handle { host := h } e).host.Barred m
      ∧ (Turn.handle { host := h } e).posts = [] := by
    have hs := hb.slot
    cases e with
    | create => exact ⟨hb.onCreate he, rfl⟩
    | resume => exact ⟨by simpa [Turn.handle, onDisplayModeLost, hs] using hb, rfl⟩
    | windowFocusChanged focused =>
      cases focused
      · exact ⟨hb, rfl⟩
      · exact ⟨by simpa [Turn.handle, onDisplayModeLost, hs] using hb, rfl⟩
    | layoutSettled => exact ⟨by simpa [Turn.handle, onLayoutSettled, hs] using hb, rfl⟩
    | chromeVisibilityChanged flags =>
      exact ⟨by simpa [Turn.handle, Host.onChrome, hs] using hb, rfl⟩
    | backPressed =>
      simp only [Turn.handle, Turn.onBack, hs]
      exact ⟨hb.move rfl rfl rfl rfl hb.keeps.2, rfl⟩
    | destroy =>
      simp only [Turn.handle, Turn.onDestroy, Turn.terminate, Turn.modify, hs]
      exact ⟨hb.move rfl hs.symm rfl rfl hb.keeps.2, trivial⟩
    | saveState => exact ⟨hb.onSaveState he (hread rfl), rfl⟩
    | fieldsEdited fields => exact ⟨hb.move rfl rfl rfl rfl hb.keeps.2, rfl⟩
    | loginClicked c =>
      refine ⟨?_, rfl⟩
      rw [Turn.handle, Turn.host_modify, onLoginClicked_of_not_takes hb.not_takes]
      exact hb
    | iconTapped time =>
      refine ⟨hb.move rfl rfl rfl rfl fun hc => ?_, rfl⟩
      have hm := h.login.fatalMessage_tap time
      rwa [show h.login.board.shown.fatalMessage? = some m from hb.keeps.2 hc, Option.some_or] at hm
    | quitClicked => exact ⟨hb.move rfl rfl rfl rfl hb.keeps.2, rfl⟩
  obtain ⟨seen, hseen⟩ := h.handle_eq e
  rw [hseen]
  exact ⟨ht.1.move rfl rfl rfl rfl ht.1.keeps.2, ht.2⟩

theorem not_keeps_handle (hb : h.Barred m) {e : HostEvent} (he : h.replaces m e = true)
    (hread : e = .saveState → h.Rereads) :
    ¬ (h.handle e).2.host.Keeps m := by
  obtain ⟨seen, hseen⟩ := h.handle_eq e
  rw [hseen]
  cases e with
  | create => exact hb.not_keeps_onCreate he
  | saveState => exact hb.not_keeps_onSaveState he (hread rfl)
  | _ => simp [replaces] at he

end Barred

end Host

namespace HostLoop

variable {m : String} {l : HostLoop}

/-- Whether a step replaces a fatal record, or what it will show. -/
def replaces (m : String) (l : HostLoop) (step : HostStep) : Bool :=
  (l.event? step).any (l.state.replaces m)

/-- Whether a step saves a record to a file that does not read as it was written. -/
def garbles (l : HostLoop) (step : HostStep) : Bool :=
  l.event? step == some .saveState && l.state.dataDir.isSome &&
    SavedRecord.ofText? l.state.login.save.toText != some l.state.login.save

/-- A loop whose host is barred, and for which only events wait. -/
structure Barred (m : String) (l : HostLoop) : Prop where
  host : l.state.Barred m
  events : ∀ t ∈ l.queue.tasks, ∃ e, t = .event e

theorem reads_of_not_garbles {step : HostStep} {e : HostEvent} (he : l.event? step = some e)
    (hg : l.garbles step = false) : e = .saveState → l.state.Rereads := by
  rintro rfl hd
  simpa [garbles, he, hd] using hg

/-- A step of a barred loop that handles no event changes nothing of note. -/
theorem Barred.take_of_no_event (hb : l.Barred m) {step : HostStep} (h : l.event? step = none) :
    (l.take step).Barred m := by
  have hw : ∀ i : Nat, l.state.workers[i]? = none := by simp [hb.host.workers]
  cases step with
  | handle e => cases h
  | post e =>
    refine ⟨hb.host, fun t ht => ?_⟩
    rcases mem_post ht with ht | rfl
    · exact hb.events t ht
    · exact ⟨e, rfl⟩
  | runTask =>
    rcases hq : l.queue.tasks with _ | ⟨t, rest⟩
    · show l.runTask.Barred m
      rw [runTask_nil hq]
      exact hb
    · obtain ⟨e, rfl⟩ := hb.events t (by simp [hq])
      simp [event?, task?, hq] at h
  | command k c =>
    have hposted : (l.state.platform.apply k c).1.posted = none := by
      rcases hp : (l.state.platform.apply k c).1.posted with _ | c'
      · rfl
      · have hlt := Platform.isOpen_lt (Platform.isOpen_of_posted hp).1
        simp [hb.host.sinks] at hlt
    simp only [HostLoop.take, HostLoop.command, hposted]
    refine ⟨hb.host.move rfl rfl rfl ?_ hb.host.keeps.2, hb.events⟩
    exact (l.state.platform.sinks_apply k c).1
  | enter i => simpa only [HostLoop.take, HostLoop.enter, hw] using hb
  | answer i a => simpa only [HostLoop.take, HostLoop.answer, hw] using hb
  | deliver i => simpa only [HostLoop.take, HostLoop.deliver, hw] using hb
  | complete i => simpa only [HostLoop.take, HostLoop.complete, hw] using hb
  | refuseWindow => exact ⟨hb.host.move rfl rfl rfl rfl hb.host.keeps.2, hb.events⟩
  | reveal => exact ⟨hb.host.move rfl rfl rfl rfl hb.host.keeps.2, hb.events⟩

theorem Barred.take (hb : l.Barred m) {step : HostStep} (hr : l.replaces m step = false)
    (hg : l.garbles step = false) : (l.take step).Barred m := by
  rcases he : l.event? step with _ | e
  · exact hb.take_of_no_event he
  · obtain ⟨l', hturn⟩ := turn?_of_event he
    have hr' : l.state.replaces m e = false := by simpa [replaces, he] using hr
    obtain ⟨hhost, hposts⟩ := hb.host.handle hr' (reads_of_not_garbles he hg)
    rw [take_turn hturn]
    refine ⟨hhost, fun u hu => ?_⟩
    rcases mem_land hu with hu | hu
    · exact hb.events u (mem_of_turn hturn hu)
    · simp [hposts] at hu

theorem Barred.not_keeps_take (hb : l.Barred m) {step : HostStep} (hr : l.replaces m step = true)
    (hg : l.garbles step = false) : ¬ (l.take step).state.Keeps m := by
  rcases he : l.event? step with _ | e
  · simp [replaces, he] at hr
  · obtain ⟨l', hturn⟩ := turn?_of_event he
    have hr' : l.state.replaces m e = true := by simpa [replaces, he] using hr
    rw [take_turn hturn]
    exact hb.host.not_keeps_handle hr' (reads_of_not_garbles he hg)

theorem barred_start {s : HostSetup} (h₀ : s.start = .ok l)
    (hm : l.state.restored = some (.fatal m)) : l.Barred m := by
  obtain ⟨layout, rfl⟩ := start_eq h₀
  exact ⟨⟨⟨hm, by simp⟩, rfl, rfl, rfl⟩, by simp⟩

section Run

variable {s : HostSetup} {l₀ : HostLoop} {steps : List HostStep}

theorem barred_takeAll (h₀ : s.start = .ok l₀) (hm : l₀.state.restored = some (.fatal m))
    (hg : ¬ Meets (fun l step => l.garbles step = true) l₀ steps)
    (hr : ¬ Meets (fun l step => l.replaces m step = true) l₀ steps) :
    (l₀.takeAll steps).Barred m := by
  induction steps using List.reverseRecOn with
  | nil => exact barred_start h₀ hm
  | append_singleton steps step ih =>
    rw [meets_concat, not_or, Bool.not_eq_true] at hg hr
    rw [takeAll_concat]
    exact (ih hg.1 hr.1).take hr.2 hg.2

/-- The first step that replaces the record ends what the run has kept. -/
theorem not_meets_of_keeps (h₀ : s.start = .ok l₀) (hm : l₀.state.restored = some (.fatal m))
    (hg : ¬ Meets (fun l step => l.garbles step = true) l₀ steps)
    (hk : ∀ before, before <+: steps → (l₀.takeAll before).state.Keeps m) :
    ¬ Meets (fun l step => l.replaces m step = true) l₀ steps := by
  induction steps using List.reverseRecOn with
  | nil => exact not_meets_nil
  | append_singleton steps step ih =>
    have hg' := hg
    rw [meets_concat, not_or, Bool.not_eq_true] at hg'
    have hr := ih hg'.1 fun before hb => hk before (hb.trans (List.prefix_append _ _))
    rw [meets_concat, not_or]
    -- up to here the host was barred, so the last step alone can have done it
    refine ⟨hr, fun hstep => (barred_takeAll h₀ hm hg'.1 hr).not_keeps_take hstep hg'.2 ?_⟩
    rw [← takeAll_concat]
    exact hk _ (List.prefix_refl _)

/-- A run keeps a fatal record, and shows its message from the creation on, exactly if no step
replaces it: a save before the creation writes what the form shows then, and a creation under a
fatal screen leaves the message of that screen. -/
theorem keeps_iff (h₀ : s.start = .ok l₀) (hm : l₀.state.restored = some (.fatal m))
    (hg : ¬ Meets (fun l step => l.garbles step = true) l₀ steps) :
    (∀ before, before <+: steps → (l₀.takeAll before).state.Keeps m)
      ↔ ¬ Meets (fun l step => l.replaces m step = true) l₀ steps := by
  refine ⟨not_meets_of_keeps h₀ hm hg, fun hr before hbefore => ?_⟩
  have hg' := fun h : Meets _ _ before => hg (h.mono hbefore)
  have hr' := fun h : Meets _ _ before => hr (h.mono hbefore)
  exact (barred_takeAll h₀ hm hg' hr').host.keeps

end Run

/-- A data directory with the record of a crash. -/
def crashed : HostSetup where
  dataDir := some ⟨{ pieces := ["data"] }⟩
  disk := { entries := [({ names := ["data"] }, .directory),
    ({ names := ["data", "instance_state.yaml"] },
      .file (SavedRecord.fatal "engine crashed").toText)] }

/-- A save before the creation replaces the record of a crash. -/
theorem replaced_crashed : (of crashed).state.restored = some (.fatal "engine crashed")
    ∧ ¬ Meets (fun l step => l.garbles step = true) (of crashed) [.handle .saveState]
      ∧ ¬ ∀ before, before <+: [.handle .saveState] →
        ((of crashed).takeAll before).state.Keeps "engine crashed" := by
  have h₀ : crashed.start = .ok (of crashed) := rfl
  have hm : (of crashed).state.restored = some (.fatal "engine crashed") := by decide +kernel
  have hg : ¬ Meets (fun l step => l.garbles step = true) (of crashed) [.handle .saveState] := by
    decide +kernel
  refine ⟨hm, hg, fun hk => (keeps_iff h₀ hm hg).1 hk ?_⟩
  decide +kernel

end HostLoop

end EngineShell
