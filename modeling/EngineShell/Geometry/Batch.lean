import EngineShell.Geometry.Layout

/-!
# Geometry batches

The table of control rectangles as the engine gets it: an array of integers, five to a control.
`ofFlat_toFlat` and `toFlat_ofFlat` say that the array and the records determine each other.
-/

namespace EngineShell

/-- The rectangle of one control. -/
structure GeometryRecord where
  code : Int
  rect : Rect
  deriving DecidableEq, Repr

/-- An array whose length is no multiple of five. -/
structure Misaligned where
  length : Nat
  deriving DecidableEq, Repr

def Misaligned.message (e : Misaligned) : String :=
  "geometry array length " ++ toString e.length ++ " is not a multiple of 5"

/-- The rectangles of a whole layout pass. -/
structure Batch where
  records : List GeometryRecord := []
  deriving DecidableEq, Repr

namespace Batch

/-- The five integers of a record. -/
def flatten (r : GeometryRecord) : List Int :=
  [r.code, r.rect.left, r.rect.top, r.rect.right, r.rect.bottom]

/-- The array for the engine. -/
def toFlat (b : Batch) : List Int :=
  b.records.flatMap flatten

/-- The records of an array, if no integers are left over. -/
def group? : List Int → Option (List GeometryRecord)
  | [] => some []
  | code :: left :: top :: right :: bottom :: rest =>
    (group? rest).map (⟨code, ⟨left, top, right, bottom⟩⟩ :: ·)
  | _ => none

/-- The batch an array stands for. -/
def ofFlat (data : List Int) : Except Misaligned Batch :=
  match group? data with
  | some records => .ok { records }
  | none => .error ⟨data.length⟩

def rectFor? (b : Batch) (code : Int) : Option Rect :=
  (b.records.find? fun r => r.code == code).map (·.rect)

/-- The table of a layout: every control in table order, an absent one with the zero rectangle. -/
def ofLayout (l : Layout) : Batch where
  records := Control.table.map fun c => ⟨c.code, (l.hitRect? c).getD .zero⟩

theorem group_toFlat (rs : List GeometryRecord) : group? (rs.flatMap flatten) = some rs := by
  induction rs with
  | nil => rfl
  | cons r rs ih => simp [flatten, group?, ih]

theorem ofFlat_toFlat (b : Batch) : ofFlat b.toFlat = .ok b := by
  simp [ofFlat, toFlat, group_toFlat]

theorem flatten_group {data : List Int} {rs : List GeometryRecord} (h : group? data = some rs) :
    rs.flatMap flatten = data := by
  fun_induction group? data generalizing rs with
  | case1 => simp_all
  | case2 code left top right bottom rest ih =>
    obtain ⟨tail, ht, rfl⟩ := Option.map_eq_some_iff.1 h
    simp [flatten, ih ht]
  | case3 => simp at h

theorem toFlat_ofFlat {data : List Int} {b : Batch} (h : ofFlat data = .ok b) :
    b.toFlat = data := by
  unfold ofFlat at h
  split at h
  · obtain rfl := Except.ok.inj h
    exact flatten_group (by assumption)
  · simp at h

end Batch

end EngineShell
