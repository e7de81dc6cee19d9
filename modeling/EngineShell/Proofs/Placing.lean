import EngineShell.Geometry.Layout
import Mathlib.Tactic

/-!
# Where the standard layout puts its controls

The standard layout exists unless one of two coordinates is too small (`standard_eq`), and
`standardRect` is the rectangle of each control in it. On a display with room for the column and
the cursor pad side by side no control sticks out and no two overlap: `usable_standard`.
-/

namespace EngineShell

/-- A coordinate, or an error where 32 bits do not hold it. -/
def checked {ε : Type} (e : ε) (i : Int) : Except ε Int :=
  if FitsCoordinate i then .ok i else .error e

section Checked

variable {ε α : Type} {e : ε}

theorem sub32_eq_checked (a b : Int) : sub32 a b = checked {} (a - b) := rfl

theorem checked_of_fits {i : Int} (h : FitsCoordinate i) : checked e i = .ok i :=
  if_pos h

theorem checked_bind {i : Int} (h : FitsCoordinate i) (f : Int → Except ε α) :
    (checked e i >>= f) = f i := by
  rw [checked_of_fits h]
  rfl

theorem checked_bind_error {i : Int} (h : ¬ FitsCoordinate i) (f : Int → Except ε α) :
    (checked e i >>= f) = .error e := by
  rw [checked, if_neg h]
  rfl

/-- Where less and less is left, only the last remainder can be too small. -/
theorem checked_sub_sub {a b c : Int} (ha : FitsCoordinate a) (hb : 0 ≤ b) (hc : 0 ≤ c)
    (f : Int → Except ε α) :
    (checked e (a - b) >>= fun d => checked e (d - c) >>= f)
      = if -2 ^ 31 ≤ a - b - c then f (a - b - c) else .error e := by
  unfold FitsCoordinate at ha
  split_ifs with h
  · have hfirst : FitsCoordinate (a - b) := by
      unfold FitsCoordinate
      omega
    have hlast : FitsCoordinate (a - b - c) := by
      unfold FitsCoordinate
      omega
    rw [checked_bind hfirst, checked_bind hlast]
  · have hlast : ¬ FitsCoordinate (a - b - c) := by
      unfold FitsCoordinate
      omega
    by_cases hfirst : FitsCoordinate (a - b)
    · rw [checked_bind hfirst, checked_bind_error hlast]
    · rw [checked_bind_error hfirst]

end Checked

namespace Rect

/-- One of the rectangles ends before the other begins, across or down. -/
def IsApart (r s : Rect) : Prop :=
  r.right ≤ s.left ∨ s.right ≤ r.left ∨ r.bottom ≤ s.top ∨ s.bottom ≤ r.top

theorem IsApart.symm {r s : Rect} (h : r.IsApart s) : s.IsApart r := by
  unfold IsApart at h ⊢
  omega

theorem contains_iff (r : Rect) (x y : Int) :
    r.contains x y = true ↔ r.left ≤ x ∧ x < r.right ∧ r.top ≤ y ∧ y < r.bottom := by
  simp [contains, and_assoc]

theorem IsApart.not_contains {r s : Rect} (h : r.IsApart s) {x y : Int}
    (hr : r.contains x y = true) : ¬ s.contains x y = true := by
  rw [contains_iff] at hr ⊢
  unfold IsApart at h
  omega

end Rect

namespace Layout

theorem tenth_eq (height : Int) :
    height.tdiv 10 = if 0 ≤ height then height / 10 else -(-height / 10) := by
  split_ifs with h
  · exact Int.tdiv_eq_ediv_of_nonneg h
  · rw [← Int.tdiv_eq_ediv_of_nonneg (by omega), Int.neg_tdiv, Int.neg_neg]

theorem button_eq (height : Int) : button height = max (height / 10) 1 := by
  have := tenth_eq height
  unfold button
  -- below zero the tenth is less than a pixel, whichever way it is rounded
  split_ifs at this <;> omega

theorem one_le_button (height : Int) : 1 ≤ button height :=
  le_max_right _ _

theorem row_mul_button (height : Int) {row : Nat} (h : row < 9) :
    0 ≤ row * button height ∧ row * button height ≤ 8 * button height := by
  have hb := one_le_button height
  exact ⟨mul_nonneg (by omega) (by omega), mul_le_mul_of_nonneg_right (by omega) (by omega)⟩

theorem margin_eq (height : Int) : margin height = button height / 4 := by
  have := one_le_button height
  rw [margin, Int.tdiv_eq_ediv_of_nonneg (by omega)]

theorem mem_column {c : Control} (h : c ≠ .cursor) : c ∈ column := by
  simp [column, Control.mem_table, h]

theorem row_lt {c : Control} (h : c ≠ .cursor) : column.idxOf c < 9 :=
  List.idxOf_lt_length_of_mem (mem_column h)

/-- The rectangle of a control in the standard layout. -/
def standardRect (width height : Int) (c : Control) : Rect :=
  if c = .cursor then
    { left := margin height
      top := height - button height * 2 - margin height
      right := margin height + button height * 2
      bottom := height - margin height }
  else buttonRect (width - button height - margin height) height (column.idxOf c)

/-- How wide and how high a control of the standard layout is. -/
def side (height : Int) (c : Control) : Int :=
  if c = .cursor then 2 * button height else button height

/-- Every control where the standard layout has it, and all widgets. -/
def standardLayout (width height : Int) : Layout where
  controls := Control.table.map fun c => (c, standardRect width height c)
  widgets := Widget.all

/-- Whether the left edge of the column and the top of the pad have no more than 32 bits. -/
def Fits (width height : Int) : Prop :=
  -2 ^ 31 ≤ width - button height - margin height
    ∧ -2 ^ 31 ≤ height - button height * 2 - margin height

instance (width height : Int) : Decidable (Fits width height) :=
  inferInstanceAs (Decidable (_ ∧ _))

theorem hitRect_standardLayout (width height : Int) (c : Control) :
    (standardLayout width height).hitRect? c = some (standardRect width height c) := by
  have hc : Control.table.find? (fun d => d == c) = some c := by
    cases c <;> rfl
  simp [hitRect?, standardLayout, List.find?_map, hc]

section Standard

variable {width height : Int}

theorem standard_eq (hw : FitsCoordinate width) (hh : FitsCoordinate height) :
    standard width height
      = if Fits width height then .ok (standardLayout width height) else .error {} := by
  have hb := one_le_button height
  have hm := margin_eq height
  have hbottom : FitsCoordinate (height - margin height) := by
    have := button_eq height
    unfold FitsCoordinate at hh ⊢
    omega
  unfold standard
  simp only [sub32_eq_checked]
  rw [checked_sub_sub hw (by omega) (by omega), checked_sub_sub hh (by omega) (by omega)]
  by_cases h : Fits width height
  · rw [if_pos h, if_pos h.1, if_pos h.2, checked_bind hbottom]
    rfl
  · rw [if_neg h]
    by_cases hleft : -2 ^ 31 ≤ width - button height - margin height
    · rw [if_pos hleft, if_neg fun htop => h ⟨hleft, htop⟩]
    · rw [if_neg hleft]

theorem edges_standardRect (width height : Int) (c : Control) :
    (standardRect width height c).right - (standardRect width height c).left = side height c
      ∧ (standardRect width height c).bottom - (standardRect width height c).top
        = side height c := by
  unfold standardRect side
  split_ifs with hc
  · dsimp only
    omega
  · simp only [buttonRect]
    omega

theorem fits_side (hh : FitsCoordinate height) (c : Control) :
    1 ≤ side height c ∧ FitsCoordinate (side height c) := by
  have hb := button_eq height
  unfold FitsCoordinate at hh ⊢
  unfold side
  split_ifs <;> omega

theorem size_standardRect (width : Int) (hh : FitsCoordinate height) (c : Control) :
    (standardRect width height c).width = .ok (side height c)
      ∧ (standardRect width height c).height = .ok (side height c) := by
  obtain ⟨hacross, hdown⟩ := edges_standardRect width height c
  have hfits := (fits_side hh c).2
  rw [Rect.width, Rect.height, sub32_eq_checked, sub32_eq_checked, hacross, hdown]
  exact ⟨checked_of_fits hfits, checked_of_fits hfits⟩

end Standard

/-- The rows of the column do not overlap. -/
theorem isApart_buttonRect (left height : Int) {row row' : Nat} (h : row < row') :
    (buttonRect left height row).IsApart (buttonRect left height row') := by
  have hb := one_le_button height
  have hrows : ((row + 1 : Nat) : Int) * button height ≤ row' * button height :=
    mul_le_mul_of_nonneg_right (by exact_mod_cast h) (by omega)
  push_cast at hrows
  rw [add_mul, one_mul] at hrows
  simp only [Rect.IsApart, buttonRect]
  omega

/-- Whether a display has room for the column and, beside it, the cursor pad. -/
def HasRoom (width height : Int) : Prop :=
  9 ≤ height ∧ 3 * button height + 2 * margin height ≤ width

instance (width height : Int) : Decidable (HasRoom width height) :=
  inferInstanceAs (Decidable (_ ∧ _))

/-- All controls of a layout can be touched on a display of some size, and no touch is for two. -/
structure IsUsable (l : Layout) (width height : Int) : Prop where
  controls : l.controls.map (·.1) = Control.table
  placed : ∀ c, ∃ r, l.hitRect? c = some r
    ∧ (∃ w, r.width = .ok w ∧ 0 < w) ∧ (∃ h, r.height = .ok h ∧ 0 < h)
    ∧ 0 ≤ r.left ∧ r.right ≤ width ∧ 0 ≤ r.top ∧ r.bottom ≤ height
  apart : ∀ c c' r r', c ≠ c' → l.hitRect? c = some r → l.hitRect? c' = some r' → r.IsApart r'
  touched : ∀ x y c c' r r', l.hitRect? c = some r → l.hitRect? c' = some r' →
    r.contains x y = true → r'.contains x y = true → c = c'

section Room

variable {width height : Int}

theorem hasRoom_of_landscape (h : 9 ≤ height) (hle : height ≤ width) : HasRoom width height := by
  have hb := button_eq height
  have hm := margin_eq height
  unfold HasRoom
  omega

/-- The column ends on the display. -/
theorem HasRoom.column_le (h : HasRoom width height) :
    margin height + 9 * button height ≤ height := by
  have hb := button_eq height
  have hm := margin_eq height
  unfold HasRoom at h
  omega

theorem HasRoom.fits (h : HasRoom width height) : Fits width height := by
  have hb := button_eq height
  have hm := margin_eq height
  unfold HasRoom at h
  unfold Fits
  omega

theorem HasRoom.within (h : HasRoom width height) (c : Control) :
    0 ≤ (standardRect width height c).left ∧ (standardRect width height c).right ≤ width
      ∧ 0 ≤ (standardRect width height c).top ∧ (standardRect width height c).bottom ≤ height := by
  have hb := one_le_button height
  have hm := margin_eq height
  have hcolumn := h.column_le
  have hroom := h.2
  unfold standardRect
  split_ifs with hc
  · dsimp only
    omega
  · obtain ⟨hfirst, hlast⟩ := row_mul_button height (row_lt hc)
    simp only [buttonRect]
    omega

theorem HasRoom.isApart (h : HasRoom width height) {c c' : Control} (hne : c ≠ c') :
    (standardRect width height c).IsApart (standardRect width height c') := by
  -- the pad and a button lie side by side
  have hpad : ∀ d : Control, d ≠ .cursor →
      (standardRect width height .cursor).IsApart (standardRect width height d) := by
    intro d hd
    have hroom := h.2
    rw [standardRect, standardRect, if_pos rfl, if_neg hd]
    simp only [Rect.IsApart, buttonRect]
    omega
  by_cases hc : c = .cursor
  · subst hc
    exact hpad c' hne.symm
  by_cases hc' : c' = .cursor
  · subst hc'
    exact (hpad c hne).symm
  rw [standardRect, standardRect, if_neg hc, if_neg hc']
  have hrows : column.idxOf c ≠ column.idxOf c' :=
    fun heq => hne ((List.idxOf_inj (mem_column hc)).1 heq)
  rcases Nat.lt_or_gt_of_ne hrows with hlt | hgt
  · exact isApart_buttonRect _ height hlt
  · exact (isApart_buttonRect _ height hgt).symm

theorem HasRoom.isUsable (h : HasRoom width height) (hh : FitsCoordinate height) :
    (standardLayout width height).IsUsable width height := by
  have hrect : ∀ {c r}, (standardLayout width height).hitRect? c = some r →
      r = standardRect width height c := by
    intro c r hr
    rw [hitRect_standardLayout] at hr
    exact (Option.some.inj hr).symm
  refine ⟨rfl, fun c => ?_, ?_, ?_⟩
  · obtain ⟨hwidth, hheight⟩ := size_standardRect width hh c
    have hpos := (fits_side hh c).1
    exact ⟨_, hitRect_standardLayout width height c, ⟨_, hwidth, by omega⟩, ⟨_, hheight, by omega⟩,
      h.within c⟩
  · intro c c' r r' hne hr hr'
    rw [hrect hr, hrect hr']
    exact h.isApart hne
  · intro x y c c' r r' hr hr' hx hx'
    by_contra hne
    rw [hrect hr] at hx
    rw [hrect hr'] at hx'
    exact (h.isApart hne).not_contains hx hx'

end Room

/-- Where there is room for it, the standard layout is there and can be used. Every display that is
at least nine pixels high and no higher than wide has room. -/
theorem usable_standard :
    (∀ width height, FitsCoordinate width → FitsCoordinate height → HasRoom width height →
        ∃ l, standard width height = .ok l ∧ l.IsUsable width height)
      ∧ ∀ width height, 9 ≤ height → height ≤ width → HasRoom width height := by
  refine ⟨fun width height hw hh h => ?_, fun width height => hasRoom_of_landscape⟩
  refine ⟨standardLayout width height, ?_, h.isUsable hh⟩
  rw [standard_eq hw hh, if_pos h.fits]

/-- On a display that is just wide enough for its height, and on the smallest one that has room. -/
theorem usable_narrow :
    (HasRoom 14 45 ∧ ∃ l, standard 14 45 = .ok l ∧ l.IsUsable 14 45)
      ∧ HasRoom 9 9 ∧ ∃ l, standard 3 9 = .ok l ∧ l.IsUsable 3 9 := by
  obtain ⟨husable, hlandscape⟩ := usable_standard
  have hroom : HasRoom 14 45 := by decide
  exact ⟨⟨hroom, husable 14 45 (by decide) (by decide) hroom⟩,
    hlandscape 9 9 (by decide) (by decide), husable 3 9 (by decide) (by decide) (by decide)⟩

end Layout

end EngineShell
