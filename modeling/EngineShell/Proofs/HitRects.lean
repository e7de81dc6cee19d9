import EngineShell.Geometry.Batch
import Mathlib.Tactic

/-!
# The table of a layout

The layout of a list of controls has for each control the rectangle that was put down last
(`hitRect_ofLists`), so with no control in it twice the order of the list does not matter
(`hitRect_ofLists_perm`). The batch of a layout describes it: `describes_ofLayout`.
-/

namespace EngineShell

namespace Layout

theorem hitRect_insert (l : Layout) (c : Control) (r : Rect) (c' : Control) :
    (l.insert c r).hitRect? c' = if c = c' then some r else l.hitRect? c' := by
  obtain ⟨controls, widgets⟩ := l
  simp only [insert, hitRect?]
  induction controls with
  | nil => by_cases h : c = c' <;> simp [place, h]
  | cons p ps ih =>
    by_cases hp : p.1 = c
    · by_cases h : c = c' <;> simp [place, hp, h]
    · rw [place, if_neg hp]
      by_cases h : p.1 = c'
      · have hne : c ≠ c' := fun heq => hp (h.trans heq.symm)
        simp [h, hne]
      · rw [List.find?_cons_of_neg (by simpa using h), ih,
          List.find?_cons_of_neg (by simpa using h)]

theorem ofLists_concat (cs : List (Control × Rect)) (p : Control × Rect) (ws : List Widget) :
    ofLists (cs ++ [p]) ws = (ofLists cs ws).insert p.1 p.2 := by
  simp [ofLists]

/-- A control has the rectangle that it was given last. -/
theorem hitRect_ofLists (cs : List (Control × Rect)) (ws : List Widget) (c : Control) :
    (ofLists cs ws).hitRect? c = (cs.reverse.find? fun p => p.1 == c).map (·.2) := by
  induction cs using List.reverseRecOn with
  | nil => rfl
  | append_singleton cs p ih =>
    rw [ofLists_concat, hitRect_insert, List.reverse_append, List.reverse_singleton,
      List.singleton_append]
    by_cases h : p.1 = c
    · simp [h]
    · rw [if_neg h, ih, List.find?_cons_of_neg (by simpa using h)]

theorem hitRect_ofLists_eq_some {cs : List (Control × Rect)} (hn : (cs.map (·.1)).Nodup)
    (ws : List Widget) (c : Control) (r : Rect) :
    (ofLists cs ws).hitRect? c = some r ↔ (c, r) ∈ cs := by
  induction cs using List.reverseRecOn with
  | nil => simp [ofLists, hitRect?]
  | append_singleton cs p ih =>
    rw [List.map_append, List.map_singleton, List.nodup_append_comm, List.singleton_append,
      List.nodup_cons] at hn
    rw [ofLists_concat, hitRect_insert, List.mem_append, List.mem_singleton]
    split_ifs with h
    · have hnot : (c, r) ∉ cs := fun hmem => hn.1 (h ▸ List.mem_map_of_mem hmem)
      simp [hnot, Prod.ext_iff, h, eq_comm]
    · have hne : (c, r) ≠ p := by
        rintro rfl
        exact h rfl
      rw [ih hn.2]
      simp [hne]

/-- With no control in them twice, lists that differ in their order put down the same. -/
theorem hitRect_ofLists_perm {cs cs' : List (Control × Rect)} (hp : cs.Perm cs')
    (hn : (cs.map (·.1)).Nodup) (ws ws' : List Widget) (c : Control) :
    (ofLists cs ws).hitRect? c = (ofLists cs' ws').hitRect? c := by
  have hn' : (cs'.map (·.1)).Nodup := (hp.map _).nodup_iff.1 hn
  ext r
  rw [hitRect_ofLists_eq_some hn, hitRect_ofLists_eq_some hn', hp.mem_iff]

end Layout

namespace Batch

/-- A batch describes a layout: it has the controls in table order, each with its rectangle or,
where the layout lacks the control, with the zero rectangle. -/
structure Describes (b : Batch) (l : Layout) : Prop where
  codes : b.records.map (·.code) = Control.table.map Control.code
  rects : ∀ c : Control, b.rectFor? c.code = some ((l.hitRect? c).getD .zero)

theorem describes_ofLayout (l : Layout) : (ofLayout l).Describes l where
  codes := by simp [ofLayout, Function.comp_def]
  rects c := by
    have hc : Control.table.find? (fun d => d.code == c.code) = some c := Control.ofCode_code c
    simp [rectFor?, ofLayout, List.find?_map, hc]

theorem Describes.length_eq {b : Batch} {l : Layout} (h : b.Describes l) :
    b.records.length = Control.table.length := by
  simpa using congrArg List.length h.codes

/-- A layout goes into its batch with nothing but the rectangles of its controls. -/
theorem ofLayout_congr {l l' : Layout} (h : ∀ c, l.hitRect? c = l'.hitRect? c) :
    ofLayout l = ofLayout l' := by
  simp [ofLayout, h]

end Batch

end EngineShell
