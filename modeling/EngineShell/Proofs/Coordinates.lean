import EngineShell.Proofs.Placing

/-!
# The standard layout one operation at a time

`Layout.standard` looks at three differences only. `Layout.draw` is the same layout with a look at
the result of every operation on the way, and it breaks off with the operation whose result does
not fit. By `draw_eq` that is always one of the differences, so that nothing is missed;
`overflows_iff` is the exact condition on the size of the display.
-/

namespace EngineShell

/-- An operation on coordinates. -/
inductive Operation where
  | add
  | sub
  | mul
  | div
  deriving DecidableEq, Repr

namespace Operation

/-- The result where there is no limit to it; quotients are rounded towards zero. -/
def exact : Operation → Int → Int → Int
  | add, a, b => a + b
  | sub, a, b => a - b
  | mul, a, b => a * b
  | div, a, b => a.tdiv b

def message : Operation → String
  | add => "attempt to add with overflow"
  | sub => "attempt to subtract with overflow"
  | mul => "attempt to multiply with overflow"
  | div => "attempt to divide with overflow"

def run (op : Operation) (a b : Int) : Except Operation Int :=
  checked op (op.exact a b)

end Operation

theorem mapM_ok {α β ε : Type} {f : α → Except ε β} {g : α → β} {xs : List α}
    (h : ∀ x ∈ xs, f x = .ok (g x)) : xs.mapM f = .ok (xs.map g) := by
  induction xs with
  | nil => rfl
  | cons x xs ih =>
    rw [List.mapM_cons, h x List.mem_cons_self, ih fun y hy => h y (List.mem_cons_of_mem _ hy)]
    rfl

namespace Layout

open Operation

def drawButton (left margin button : Int) (row : Nat) : Except Operation Rect := do
  let top ← add.run margin (← mul.run row button)
  let right ← add.run left button
  let bottom ← add.run top button
  return { left, top, right, bottom }

def drawColumn (left margin button : Int) : Except Operation (List (Control × Rect)) :=
  column.zipIdx.mapM fun (c, row) => do return (c, ← drawButton left margin button row)

def drawPad (height margin button : Int) : Except Operation Rect := do
  let pad ← mul.run button 2
  let top ← sub.run (← sub.run height pad) margin
  let right ← add.run margin pad
  let bottom ← sub.run height margin
  return { left := margin, top, right, bottom }

/-- The standard layout, if all that is computed for it fits. -/
def draw (width height : Int) : Except Operation Layout := do
  let button := max (← div.run height 10) 1
  let margin ← div.run button 4
  let left ← sub.run (← sub.run width button) margin
  let buttons ← drawColumn left margin button
  let pad ← drawPad height margin button
  return {
    controls := buttons ++ [(.cursor, pad)]
    widgets := Widget.all }

section Draw

variable {width height : Int}

theorem drawButton_eq (hw : FitsCoordinate width) (hh : FitsCoordinate height)
    (hleft : -2 ^ 31 ≤ width - button height - margin height) {row : Nat} (hrow : row < 9) :
    drawButton (width - button height - margin height) (margin height) (button height) row
      = .ok (buttonRect (width - button height - margin height) height row) := by
  have hb := button_eq height
  have hm := margin_eq height
  unfold FitsCoordinate at hw hh
  obtain ⟨hfirst, hlast⟩ := row_mul_button height hrow
  unfold drawButton
  simp only [run, exact]
  rw [checked_bind, checked_bind, checked_bind, checked_bind]
  · rfl
  all_goals
    unfold FitsCoordinate
    omega

theorem drawColumn_eq (hw : FitsCoordinate width) (hh : FitsCoordinate height)
    (hleft : -2 ^ 31 ≤ width - button height - margin height) :
    drawColumn (width - button height - margin height) (margin height) (button height)
      = .ok (column.zipIdx.map fun (c, row) =>
        (c, buttonRect (width - button height - margin height) height row)) := by
  refine mapM_ok fun x hx => ?_
  dsimp only
  rw [drawButton_eq hw hh hleft (List.snd_lt_of_mem_zipIdx hx)]
  rfl

theorem drawPad_eq (hh : FitsCoordinate height) :
    drawPad height (margin height) (button height)
      = if -2 ^ 31 ≤ height - button height * 2 - margin height
        then .ok (standardRect width height .cursor) else .error .sub := by
  have hb := button_eq height
  have hm := margin_eq height
  have ⟨hlow, hhigh⟩ := hh
  unfold drawPad
  simp only [run, exact]
  rw [checked_bind (by unfold FitsCoordinate; omega), checked_sub_sub hh (by omega) (by omega)]
  split_ifs with htop
  · rw [checked_bind (by unfold FitsCoordinate; omega),
      checked_bind (by unfold FitsCoordinate; omega)]
    rfl
  · rfl

theorem draw_eq (hw : FitsCoordinate width) (hh : FitsCoordinate height) :
    draw width height
      = if Fits width height then .ok (standardLayout width height) else .error .sub := by
  have hb := button_eq height
  have hm := margin_eq height
  have ⟨hlow, hhigh⟩ := hh
  have hbutton : max (height.tdiv 10) 1 = button height := rfl
  have hmargin : (button height).tdiv 4 = margin height := rfl
  have htenth : FitsCoordinate (height.tdiv 10) := by
    have := tenth_eq height
    unfold FitsCoordinate
    split_ifs at this <;> omega
  unfold draw
  simp only [run, exact]
  rw [checked_bind htenth, hbutton, hmargin, checked_bind (by unfold FitsCoordinate; omega),
    checked_sub_sub hw (by omega) (by omega)]
  -- the height has its say once the column is there
  by_cases hleft : -2 ^ 31 ≤ width - button height - margin height
  · rw [if_pos hleft, drawColumn_eq hw hh hleft, drawPad_eq hh]
    by_cases htop : -2 ^ 31 ≤ height - button height * 2 - margin height
    · rw [if_pos htop, if_pos ⟨hleft, htop⟩]
      rfl
    · rw [if_neg htop, if_neg fun h => htop h.2]
      rfl
  · rw [if_neg hleft, if_neg fun h => hleft h.1]

/-- Only a difference ever leaves 32 bits, with the message that `standard` fails with. -/
theorem mapError_draw (hw : FitsCoordinate width) (hh : FitsCoordinate height) :
    (draw width height).mapError message = (standard width height).mapError Overflow.message := by
  rw [draw_eq hw hh, standard_eq hw hh]
  split_ifs <;> rfl

theorem fits_of_nonneg (hh : FitsCoordinate height) (hw₀ : 0 ≤ width) (hh₀ : 0 ≤ height) :
    Fits width height := by
  have hb := button_eq height
  have hm := margin_eq height
  unfold FitsCoordinate at hh
  unfold Fits
  omega

end Draw

/-- Computing the standard layout overflows if and only if the left edge of the column or the top of
the pad is too small, which they are on no display with a size that is not negative. In a layout
that was computed the sizes of all rectangles can be computed as well. -/
theorem overflows_iff (width height : Int) (hw : FitsCoordinate width)
    (hh : FitsCoordinate height) :
    ((∃ op, draw width height = .error op)
        ↔ width - button height - margin height < -2 ^ 31
          ∨ height - 2 * button height - margin height < -2 ^ 31)
      ∧ (0 ≤ width → 0 ≤ height → ∃ l, draw width height = .ok l)
      ∧ (∀ l, draw width height = .ok l → ∀ c, ∃ r, l.hitRect? c = some r
        ∧ r.width = .ok (side height c) ∧ r.height = .ok (side height c))
      ∧ (draw width height).mapError message
        = (standard width height).mapError Overflow.message := by
  have hdraw := draw_eq hw hh
  refine ⟨?_, fun hw₀ hh₀ => ?_, fun l hl c => ?_, mapError_draw hw hh⟩
  · rw [hdraw]
    split_ifs with h <;> unfold Fits at h
    · refine iff_of_false (fun ⟨_, herror⟩ => by cases herror) ?_
      omega
    · refine iff_of_true ⟨_, rfl⟩ ?_
      omega
  · rw [hdraw, if_pos (fits_of_nonneg hh hw₀ hh₀)]
    exact ⟨_, rfl⟩
  · rw [hdraw] at hl
    split_ifs at hl
    obtain rfl := Except.ok.inj hl
    exact ⟨_, hitRect_standardLayout width height c, size_standardRect width hh c⟩

/-- On the highest display that there is, the left edge of the column fits at one width and not at
the next smaller one. -/
theorem overflows_highest :
    FitsCoordinate (-0x70000001) ∧ FitsCoordinate (-0x70000002) ∧ FitsCoordinate 0x7fffffff
      ∧ (¬ ∃ op, draw (-0x70000001) 0x7fffffff = .error op)
      ∧ (∃ op, draw (-0x70000002) 0x7fffffff = .error op)
      ∧ ∃ l, draw 0 0x7fffffff = .ok l := by
  have hlast : FitsCoordinate (-0x70000001) := by decide
  have hnext : FitsCoordinate (-0x70000002) := by decide
  have hh : FitsCoordinate 0x7fffffff := by decide
  refine ⟨hlast, hnext, hh, ?_, ?_, ?_⟩
  · exact (overflows_iff _ _ hlast hh).1.not.2 (by decide +kernel)
  · exact (overflows_iff _ _ hnext hh).1.2 (by decide +kernel)
  · exact (overflows_iff 0 _ (by decide) hh).2.1 le_rfl (by decide)

end Layout

end EngineShell
