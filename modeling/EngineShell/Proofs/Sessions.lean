import EngineShell.Session.Basic
import Mathlib.Tactic

/-!
# Sessions from the first step to the last

A session is fresh until the engine answers, up while it owns its window, and over once it is torn
down. The engine's answer makes a fresh session up, or over with its outcome on the way
(`conclude_of_isFresh`), and an outcome makes one that is up over (`finish_of_isUp`). What a
teardown does to the sinks and windows that sessions share is `isOpen_teardown` and
`ids_teardown`.
-/

namespace EngineShell

namespace Windows

/-- The numbers of the windows on the display. -/
def ids (w : Windows) : List Nat :=
  w.attached.map (·.1)

theorem ids_remove (w : Windows) (id : Nat) : (w.remove id).2.ids = w.ids.filter (· != id) := by
  unfold remove
  split_ifs with h
  · simp [ids, List.filter_map, Function.comp_def]
  · have hne : ∀ k ∈ w.ids, k ≠ id := by
      rintro k hk rfl
      obtain ⟨p, hp, rfl⟩ := List.mem_map.1 hk
      exact h (List.any_eq_true.2 ⟨p, hp, by simp⟩)
    exact (List.filter_eq_self.2 (by simpa using hne)).symm

end Windows

namespace Platform

/-- Whether the sink of an attempt still takes commands. -/
def IsOpen (p : Platform) (k : Nat) : Prop :=
  (p.sink k).closed = false

theorem isOpen_iff (p : Platform) (k : Nat) :
    p.IsOpen k ↔ ∃ s, p.sinks[k]? = some s ∧ s.closed = false := by
  unfold IsOpen sink
  cases p.sinks[k]? <;> simp

theorem isOpen_congr {p p' : Platform} (h : p'.sinks = p.sinks) (k : Nat) :
    p'.IsOpen k ↔ p.IsOpen k := by
  rw [isOpen_iff, isOpen_iff, h]

theorem isOpen_lt {p : Platform} {k : Nat} (h : p.IsOpen k) : k < p.sinks.length := by
  obtain ⟨s, hs, -⟩ := (p.isOpen_iff k).1 h
  exact (List.getElem?_eq_some_iff.1 hs).1

theorem closed_of_not_isOpen {p : Platform} (h : ∀ k, ¬ p.IsOpen k) :
    ∀ sink ∈ p.sinks, sink.closed = true := by
  intro sink hsink
  obtain ⟨k, hk⟩ := List.getElem?_of_mem hsink
  by_contra hopen
  exact h k ((p.isOpen_iff k).2 ⟨sink, hk, by simpa using hopen⟩)

theorem isOpen_addSink (p : Platform) (k : Nat) :
    (p.addSink {}).IsOpen k ↔ p.IsOpen k ∨ k = p.sinks.length := by
  rw [isOpen_iff, isOpen_iff, addSink, List.getElem?_append]
  split_ifs with h
  · have : k ≠ p.sinks.length := by omega
    simp [this]
  · rcases Nat.lt_or_eq_of_le (Nat.le_of_not_lt h) with hlt | rfl
    · have : k ≠ p.sinks.length := by omega
      have hk : k - p.sinks.length ≠ 0 := by omega
      simp [List.getElem?_eq_none (Nat.le_of_not_lt h), hk, this]
    · simp

theorem isOpen_markFinishing (p : Platform) (j k : Nat) :
    (p.modifySink j fun s => { s with finishing := true }).IsOpen k ↔ p.IsOpen k := by
  rw [isOpen_iff, isOpen_iff, modifySink, List.getElem?_modify]
  rcases p.sinks[k]? with _ | s <;> simp
  split_ifs <;> rfl

theorem isOpen_closeSink (p : Platform) (j k : Nat) :
    (p.modifySink j fun s => { s with closed := true }).IsOpen k ↔ p.IsOpen k ∧ k ≠ j := by
  rw [isOpen_iff, isOpen_iff, modifySink, List.getElem?_modify]
  rcases p.sinks[k]? with _ | s
  · simp
  · by_cases h : j = k
    · simp [h]
    · simp [h, Ne.symm h]

/-- Only an open sink posts a command. -/
theorem isOpen_of_posted {p : Platform} {k : Nat} {c c' : Command}
    (h : (p.apply k c).1.posted = some c') : p.IsOpen k ∧ c' = c := by
  unfold apply Sink.apply at h
  split_ifs at h with hq hc
  simp only [Option.some.injEq] at h
  exact ⟨by simpa [IsOpen] using hc, h.symm⟩

theorem sinks_apply (p : Platform) (k : Nat) (c : Command) :
    (p.apply k c).2.sinks = p.sinks ∧ (p.apply k c).2.windows = p.windows := by
  unfold apply
  dsimp only
  split <;> exact ⟨rfl, rfl⟩

@[simp] theorem length_modifySink (p : Platform) (k : Nat) (f : Sink → Sink) :
    (p.modifySink k f).sinks.length = p.sinks.length := by
  simp [modifySink]

end Platform

namespace Session

/-- The windows that a session owns. -/
def windows (s : Session) : List Nat :=
  (s.overlay.bind Guard.window).toList

/-- The engine has not answered yet. -/
structure IsFresh (s : Session) : Prop where
  created : s.stage = .created
  bare : s.overlay = none
  unsettled : s.sender.settled = false

/-- The session owns its window, and nothing has ended it. -/
structure IsUp (s : Session) : Prop where
  live : s.stage = .live
  covered : ∃ id, s.windows = [id]
  unsettled : s.sender.settled = false
  accepted : s.accepted = true

/-- The session is torn down. -/
structure IsOver (s : Session) : Prop where
  tornDown : s.stage = .tornDown
  bare : s.overlay = none

theorem IsFresh.windows_eq {s : Session} (h : s.IsFresh) : s.windows = [] := by
  simp [windows, h.bare]

theorem IsOver.windows_eq {s : Session} (h : s.IsOver) : s.windows = [] := by
  simp [windows, h.bare]

theorem IsOver.teardown_eq {s : Session} (h : s.IsOver) (p : Platform) :
    s.teardown p = (false, s, p) := by
  simp [teardown, isTornDown, h.tornDown]

section Teardown

variable {s : Session} (p : Platform)

/-- What a teardown comes to, step by step. -/
theorem teardown_eq (h : s.stage ≠ .tornDown) :
    s.teardown p = (true, { s with overlay := none, stage := .tornDown },
      ({ p.modifySink s.sink (fun k => { k with finishing := true }) with
        windows := match s.overlay with
          | none => p.windows
          | some guard => (guard.remove p.windows).2.2 }).modifySink s.sink
        fun k => { k with closed := true }) := by
  have : s.isTornDown = false := by simpa [isTornDown] using h
  rw [teardown, if_neg (by simp [this])]
  rcases ho : s.overlay with _ | guard <;>
    simp [takeSteps, TeardownStep.all, takeStep, ho, Platform.modifySink]

theorem ids_teardown (h : s.stage ≠ .tornDown) :
    (s.teardown p).2.2.windows.ids = p.windows.ids.filter (· ∉ s.windows) := by
  rw [teardown_eq p h]
  rcases ho : s.overlay with _ | ⟨_ | id, layout⟩
  · simp [windows, ho, Platform.modifySink]
  · simp [windows, ho, Platform.modifySink, Guard.remove]
  · simp only [Platform.modifySink, Guard.remove, Windows.ids_remove]
    exact List.filter_congr fun k _ => by
      by_cases hk : k = id <;> simp [windows, ho, hk]

theorem isOpen_teardown (h : s.stage ≠ .tornDown) (k : Nat) :
    (s.teardown p).2.2.IsOpen k ↔ p.IsOpen k ∧ k ≠ s.sink := by
  rw [teardown_eq p h, Platform.isOpen_closeSink]
  exact and_congr_left' ((Platform.isOpen_congr rfl k).trans (p.isOpen_markFinishing s.sink k))

@[simp] theorem length_sinks_teardown : (s.teardown p).2.2.sinks.length = p.sinks.length := by
  by_cases h : s.stage = .tornDown
  · simp [teardown, isTornDown, h]
  · simp [teardown_eq p h]

theorem isOver_teardown (h : s.stage ≠ .tornDown) : (s.teardown p).2.1.IsOver := by
  rw [teardown_eq p h]
  exact ⟨rfl, rfl⟩

@[simp] theorem sink_teardown : (s.teardown p).2.1.sink = s.sink := by
  by_cases h : s.stage = .tornDown
  · simp [teardown, isTornDown, h]
  · simp [teardown_eq p h]

@[simp] theorem accepted_teardown : (s.teardown p).2.1.accepted = s.accepted := by
  by_cases h : s.stage = .tornDown
  · simp [teardown, isTornDown, h]
  · simp [teardown_eq p h]

@[simp] theorem sender_teardown : (s.teardown p).2.1.sender = s.sender := by
  by_cases h : s.stage = .tornDown
  · simp [teardown, isTornDown, h]
  · simp [teardown_eq p h]

theorem finish_of_isUp (h : s.IsUp) (o : Outcome) :
    (s.finish p o).1 = some o ∧ (s.finish p o).2.2 = (s.teardown p).2.2 := by
  simp [finish, OutcomeSender.send, h.unsettled]

end Teardown

end Session

/-- The engine took a session, and its window is up. -/
structure Opened.Succeeded (o : Opened) (s : Session) (p : Platform) : Prop where
  failure : o.failure = none
  delivered : o.delivered = none
  up : o.session.IsUp
  sink : o.session.sink = s.sink
  sinks : o.platform.sinks = p.sinks
  ids : o.platform.windows.ids = p.windows.ids ++ o.session.windows

/-- A session was refused, by the engine or by the display, and its outcome is on the way. -/
structure Opened.Failed (o : Opened) (s : Session) (p : Platform) (f : Outcome) : Prop where
  failure : o.failure = some f
  delivered : o.delivered = some f
  ended : o.session.IsOver
  sink : o.session.sink = s.sink
  isOpen : ∀ k, o.platform.IsOpen k ↔ p.IsOpen k ∧ k ≠ s.sink
  length_sinks : o.platform.sinks.length = p.sinks.length
  ids : o.platform.windows.ids = p.windows.ids

namespace Session

/-- Failing closes the sink of a session that owns no window. -/
theorem fail_failed {s : Session} (p : Platform) (o : Outcome) (hs : s.stage ≠ .tornDown)
    (hw : s.windows = []) (hu : s.sender.settled = false) : (s.fail p o).Failed s p o where
  failure := rfl
  delivered := by simp [fail, finish, OutcomeSender.send, hu]
  ended := ⟨(isOver_teardown p hs).tornDown, (isOver_teardown p hs).bare⟩
  sink := sink_teardown p
  isOpen := isOpen_teardown p hs
  length_sinks := length_sinks_teardown p
  ids := by
    rw [show (s.fail p o).platform = (s.teardown p).2.2 from rfl, ids_teardown p hs, hw]
    simp

theorem conclude_of_isFresh {s : Session} (h : s.IsFresh) (p : Platform) (a : Answer) :
    (s.conclude p a).Succeeded s p ∨ ∃ f, (s.conclude p a).Failed s p f := by
  have hs : s.stage ≠ .tornDown := by simp [h.created]
  unfold conclude
  split
  · exact .inr ⟨_, fail_failed p _ hs h.windows_eq h.unsettled⟩
  · unfold goLive Guard.attach Windows.add
    by_cases hr : p.windows.refuseNext
    · refine .inr ⟨.fatal WindowError.refused.message, ?_⟩
      have := fail_failed (s := { s with accepted := true })
        { p.count .opened with windows := { p.windows with refuseNext := false } }
        (.fatal WindowError.refused.message) hs h.windows_eq h.unsettled
      simp only [Platform.count, hr, if_true, Except.map]
      exact ⟨this.failure, this.delivered, this.ended, this.sink, this.isOpen,
        this.length_sinks, this.ids⟩
    · refine .inl ?_
      simp only [Platform.count, hr, Except.map]
      exact ⟨rfl, rfl, ⟨rfl, ⟨_, rfl⟩, h.unsettled, rfl⟩, rfl, rfl, by
        simp [Platform.reassert, Windows.ids, windows]⟩

theorem sink_conclude (s : Session) (p : Platform) (a : Answer) :
    (s.conclude p a).session.sink = s.sink
      ∧ (s.conclude p a).platform.sinks.length = p.sinks.length := by
  unfold conclude
  split
  · exact ⟨sink_teardown p, length_sinks_teardown p⟩
  · unfold goLive
    dsimp only
    split
    · exact ⟨rfl, rfl⟩
    · exact ⟨sink_teardown _, length_sinks_teardown _⟩

end Session

end EngineShell
