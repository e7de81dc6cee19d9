import EngineShell.Text.Blank
import Mathlib.Data.List.TakeWhile
import Mathlib.Tactic

/-!
# Trimming

What `trim` makes of a text, said by how the text is put together (`Trims`), and texts that have no
blanks at all (`Clean`).
-/

namespace EngineShell

namespace Text

/-- A text without blanks. -/
def Clean (cs : List Char) : Prop :=
  ∀ c ∈ cs, isBlank c = false

/-- A text is another one without the blanks at both ends. -/
structure Trims (cs t : List Char) : Prop where
  parts : ∃ before after, cs = before ++ (t ++ after) ∧ (∀ c ∈ before, isBlank c = true)
    ∧ ∀ c ∈ after, isBlank c = true
  head : ∀ c ∈ t.head?, isBlank c = false
  last : ∀ c ∈ t.getLast?, isBlank c = false

variable {cs t : List Char}

@[simp]
theorem clean_append {cs' : List Char} : Clean (cs ++ cs') ↔ Clean cs ∧ Clean cs' := by
  simp [Clean, or_imp, forall_and]

@[simp]
theorem clean_cons {c : Char} : Clean (c :: cs) ↔ isBlank c = false ∧ Clean cs := by
  simp [Clean]

theorem Clean.trims (h : Clean cs) : Trims cs cs where
  parts := ⟨[], [], by simp⟩
  head c hc := h c (List.mem_of_head? hc)
  last c hc := h c (List.mem_of_getLast? hc)

theorem Clean.newline_notMem (h : Clean cs) : '\n' ∉ cs := fun hmem => by
  cases h _ hmem

theorem trimStart_append {before : List Char} (hb : ∀ c ∈ before, isBlank c = true)
    (ht : ∀ c ∈ t.head?, isBlank c = false) : trimStart (before ++ t) = t := by
  rw [trimStart, List.dropWhile_append_of_pos hb]
  rcases t with _ | ⟨c, t⟩
  · rfl
  · exact List.dropWhile_cons_of_neg (by simp [ht c rfl])

theorem trimEnd_append {after : List Char} (ha : ∀ c ∈ after, isBlank c = true)
    (ht : ∀ c ∈ t.getLast?, isBlank c = false) : trimEnd (t ++ after) = t := by
  have h : trimStart (after.reverse ++ t.reverse) = t.reverse :=
    trimStart_append (by simpa using ha) (by simpa using ht)
  rw [trimStart] at h
  rw [trimEnd, List.reverse_append, h, List.reverse_reverse]

theorem exists_trimStart (cs : List Char) : ∃ before, cs = before ++ trimStart cs
    ∧ (∀ c ∈ before, isBlank c = true) ∧ ∀ c ∈ (trimStart cs).head?, isBlank c = false := by
  refine ⟨cs.takeWhile isBlank, List.takeWhile_append_dropWhile.symm,
    fun c hc => List.mem_takeWhile_imp hc, fun c hc => ?_⟩
  have h := List.head?_dropWhile_not isBlank cs
  rw [← trimStart, Option.mem_def.1 hc] at h
  exact h

theorem exists_trimEnd (cs : List Char) : ∃ after, cs = trimEnd cs ++ after
    ∧ (∀ c ∈ after, isBlank c = true) ∧ ∀ c ∈ (trimEnd cs).getLast?, isBlank c = false := by
  obtain ⟨before, hcs, hb, hh⟩ := exists_trimStart cs.reverse
  refine ⟨before.reverse, ?_, by simpa using hb, ?_⟩
  · have h := congrArg List.reverse hcs
    rwa [List.reverse_reverse, List.reverse_append] at h
  · rwa [trimEnd, List.getLast?_reverse]

theorem trims_trim (cs : List Char) : Trims cs (trim cs) := by
  obtain ⟨before, hcs, hb, hh⟩ := exists_trimStart cs
  obtain ⟨after, ht, ha, hl⟩ := exists_trimEnd (trimStart cs)
  refine ⟨⟨before, after, by rw [trim, ← ht, ← hcs], hb, ha⟩, fun c hc => hh c ?_, hl⟩
  rw [ht, List.head?_append, ← trim, Option.mem_def.1 hc]
  rfl

/-- Only one text is another one without the blanks at both ends. -/
theorem trim_eq_iff : trim cs = t ↔ Trims cs t := by
  refine ⟨fun h => h ▸ trims_trim cs, fun h => ?_⟩
  obtain ⟨before, after, rfl, hb, ha⟩ := h.parts
  by_cases ht : t = []
  · have hall : ∀ c ∈ before ++ (t ++ after), isBlank c = true := by simpa [ht, or_imp, forall_and]
      using ⟨hb, ha⟩
    rw [trim, trimStart, List.dropWhile_eq_nil_iff.2 hall, ht]
    rfl
  · have hh : ∀ c ∈ (t ++ after).head?, isBlank c = false := by
      rw [List.head?_append_of_ne_nil t ht]
      exact h.head
    rw [trim, trimStart_append hb hh, trimEnd_append ha h.last]

end Text

end EngineShell
