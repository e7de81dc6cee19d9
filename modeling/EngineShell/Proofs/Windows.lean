import EngineShell.Proofs.Sessions

/-!
# The log of a window stack

A stack of windows writes down what it adds and what it removes. `Windows.Logged` says that the log
tells the truth: windows are added under rising numbers, each is removed at most once and after it
was added, and the ones on the display are those added and not removed. Adding and removing keep
this (`Logged.add`, `Logged.remove`).
-/

namespace EngineShell

/-- Where an entry stands in a log that has grown by one. -/
theorem concat_eq_append_cons {α : Type} {log before after : List α} {x y : α}
    (h : log ++ [x] = before ++ y :: after) :
    before = log ∧ y = x ∧ after = []
      ∨ ∃ after', after = after' ++ [x] ∧ log = before ++ y :: after' := by
  rcases List.eq_nil_or_concat after with rfl | ⟨after', last, rfl⟩
  · obtain ⟨rfl, hlast⟩ := List.append_inj' h rfl
    exact .inl ⟨rfl, (List.cons.inj hlast).1.symm, rfl⟩
  · rw [List.concat_eq_append, ← List.cons_append, ← List.append_assoc] at h
    obtain ⟨rfl, hlast⟩ := List.append_inj' h rfl
    rw [(List.cons.inj hlast).1, List.concat_eq_append]
    exact .inr ⟨after', rfl, rfl⟩

namespace WindowEvent

def added? : WindowEvent → Option Nat
  | added id => some id
  | removed _ => none

def removed? : WindowEvent → Option Nat
  | removed id => some id
  | added _ => none

theorem added?_eq_some {e : WindowEvent} {id : Nat} : e.added? = some id ↔ e = .added id := by
  cases e <;> simp [added?]

theorem removed?_eq_some {e : WindowEvent} {id : Nat} :
    e.removed? = some id ↔ e = .removed id := by
  cases e <;> simp [removed?]

end WindowEvent

namespace Windows

/-- The windows that were ever added, in order. -/
def addedIds (w : Windows) : List Nat :=
  w.events.filterMap WindowEvent.added?

def removedIds (w : Windows) : List Nat :=
  w.events.filterMap WindowEvent.removed?

theorem mem_addedIds {w : Windows} {id : Nat} : id ∈ w.addedIds ↔ .added id ∈ w.events := by
  simp [addedIds, WindowEvent.added?_eq_some]

theorem mem_removedIds {w : Windows} {id : Nat} :
    id ∈ w.removedIds ↔ .removed id ∈ w.events := by
  simp [removedIds, WindowEvent.removed?_eq_some]

theorem addedIds_remove (w : Windows) (id : Nat) : (w.remove id).2.addedIds = w.addedIds := by
  unfold remove
  split_ifs
  · simp [addedIds, WindowEvent.added?]
  · rfl

theorem addedIds_add (w : Windows) (params : WindowParams) :
    (w.add params).2.addedIds = w.addedIds ++ (w.add params).1.toOption.toList := by
  unfold add
  split_ifs
  · simp [addedIds, Except.toOption]
  · simp [addedIds, WindowEvent.added?, Except.toOption]

theorem isAttached_iff {w : Windows} {id : Nat} : w.isAttached id = true ↔ id ∈ w.ids := by
  simp [isAttached, ids]

/-- The log of a stack agrees with what is on the display. -/
structure Logged (w : Windows) : Prop where
  added : w.addedIds = List.range' 1 w.lastId
  removed : w.removedIds.Nodup
  attached : w.ids = w.addedIds.filter (· ∉ w.removedIds)
  ordered : ∀ before id after, w.events = before ++ .removed id :: after → .added id ∈ before

namespace Logged

variable {w : Windows}

theorem empty : Logged {} :=
  ⟨rfl, List.nodup_nil, rfl, by simp⟩

theorem mem_added (h : w.Logged) {id : Nat} (hr : id ∈ w.removedIds) : id ∈ w.addedIds := by
  obtain ⟨before, after, heq⟩ := List.append_of_mem (mem_removedIds.1 hr)
  rw [mem_addedIds, heq]
  exact List.mem_append_left _ (h.ordered before id after heq)

theorem failNext (h : w.Logged) : w.failNext.Logged :=
  ⟨h.added, h.removed, h.attached, h.ordered⟩

/-- One more event keeps the order, unless it removes a window that was never added. -/
theorem ordered_concat (h : w.Logged) {e : WindowEvent}
    (he : ∀ id, e = .removed id → id ∈ w.addedIds) (before : List WindowEvent) (id : Nat)
    (after : List WindowEvent) (heq : w.events ++ [e] = before ++ .removed id :: after) :
    .added id ∈ before := by
  obtain ⟨rfl, hlast, -⟩ | ⟨after', -, hlog⟩ := concat_eq_append_cons heq
  · exact mem_addedIds.1 (he id hlast.symm)
  · exact h.ordered before id after' hlog

theorem add (h : w.Logged) (params : WindowParams) : (w.add params).2.Logged := by
  unfold Windows.add
  split_ifs
  · exact ⟨h.added, h.removed, h.attached, h.ordered⟩
  have hnew : w.lastId + 1 ∉ w.removedIds := by
    intro hr
    have := h.mem_added hr
    rw [h.added, List.mem_range'_1] at this
    omega
  set w' : Windows := { w with
    lastId := w.lastId + 1
    attached := w.attached ++ [(w.lastId + 1, params)]
    events := w.events ++ [.added (w.lastId + 1)] } with hw'
  have hadded : w'.addedIds = w.addedIds ++ [w.lastId + 1] := by
    simp [hw', addedIds, List.filterMap_append, WindowEvent.added?]
  have hremoved : w'.removedIds = w.removedIds := by
    simp [hw', removedIds, List.filterMap_append, WindowEvent.removed?]
  have hids : w'.ids = w.ids ++ [w.lastId + 1] := by simp [hw', ids]
  refine ⟨?_, hremoved ▸ h.removed, ?_, h.ordered_concat (by simp)⟩
  · rw [hadded, h.added, List.range'_1_concat, Nat.add_comm 1]
  · rw [hids, hadded, hremoved, List.filter_append, h.attached]
    simp [hnew]

theorem remove (h : w.Logged) (id : Nat) : (w.remove id).2.Logged := by
  have hids := w.ids_remove id
  unfold Windows.remove at hids ⊢
  split_ifs at hids ⊢ with ha
  · have hmem : id ∈ w.addedIds ∧ id ∉ w.removedIds := by
      have := isAttached_iff.1 ha
      rw [h.attached] at this
      simpa using this
    set w' : Windows := { w with
      attached := w.attached.filter fun p => p.1 != id
      events := w.events ++ [.removed id] } with hw'
    have hadded : w'.addedIds = w.addedIds := by
      simp [hw', addedIds, List.filterMap_append, WindowEvent.added?]
    have hremoved : w'.removedIds = w.removedIds ++ [id] := by
      simp [hw', removedIds, List.filterMap_append, WindowEvent.removed?]
    refine ⟨hadded ▸ h.added, ?_, ?_, h.ordered_concat fun id' he => ?_⟩
    · rw [hremoved, ← List.concat_eq_append, List.nodup_concat]
      exact ⟨hmem.2, h.removed⟩
    · rw [hids, h.attached, hadded, hremoved, List.filter_filter]
      refine List.filter_congr fun k _ => ?_
      simp only [bne, List.mem_append, List.mem_singleton, not_or, Bool.decide_and]
      rw [Bool.and_comm]
      by_cases hk : k = id <;> simp [hk]
    · cases he
      exact hmem.1
  · exact h

end Logged

/-- Windows were taken down, and nothing else happened. -/
def Sheds (w w' : Windows) : Prop :=
  ∃ gone : List Nat, w' = gone.foldl (fun w id => (w.remove id).2) w

namespace Sheds

variable {w w' w'' : Windows}

theorem refl (w : Windows) : w.Sheds w :=
  ⟨[], rfl⟩

theorem trans (h : w.Sheds w') (h' : w'.Sheds w'') : w.Sheds w'' := by
  obtain ⟨gone, rfl⟩ := h
  obtain ⟨gone', rfl⟩ := h'
  exact ⟨gone ++ gone', (List.foldl_append ..).symm⟩

theorem remove (w : Windows) (id : Nat) : w.Sheds (w.remove id).2 :=
  ⟨[id], rfl⟩

theorem logged (h : w.Sheds w') (hl : w.Logged) : w'.Logged := by
  obtain ⟨gone, rfl⟩ := h
  induction gone generalizing w with
  | nil => exact hl
  | cons id gone ih => exact ih (hl.remove id)

theorem length_ids_le (h : w.Sheds w') : w'.ids.length ≤ w.ids.length := by
  obtain ⟨gone, rfl⟩ := h
  induction gone generalizing w with
  | nil => exact le_rfl
  | cons id gone ih => exact ih.trans (w.ids_remove id ▸ List.length_filter_le _ _)

/-- Windows that are all still up were not touched. -/
theorem eq_of_length (h : w.Sheds w') (hl : w.ids.length ≤ w'.ids.length) : w' = w := by
  obtain ⟨gone, rfl⟩ := h
  induction gone generalizing w with
  | nil => rfl
  | cons id gone ih =>
    have hstill : w.ids.length ≤ (w.remove id).2.ids.length :=
      hl.trans (length_ids_le ⟨gone, rfl⟩)
    have hid : (w.remove id).2 = w := by
      rw [ids_remove] at hstill
      unfold Windows.remove
      split_ifs with ha
      · -- a window that is up would be missing afterwards
        have hlt : (w.ids.filter (· != id)).length < w.ids.length :=
          List.length_filter_lt_length_iff_exists.2 ⟨id, isAttached_iff.1 ha, by simp⟩
        omega
      · rfl
    rw [List.foldl_cons, hid] at hl ⊢
    exact ih hl

theorem addedIds_eq (h : w.Sheds w') : w'.addedIds = w.addedIds := by
  obtain ⟨gone, rfl⟩ := h
  induction gone generalizing w with
  | nil => rfl
  | cons id gone ih => exact ih.trans (w.addedIds_remove id)

end Sheds

end Windows

end EngineShell
