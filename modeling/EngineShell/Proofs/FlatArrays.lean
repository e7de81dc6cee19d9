import EngineShell.Geometry.Batch
import Mathlib.Tactic

/-!
# Flat geometry arrays

A batch as the array that the engine gets: the record with number `i` stands from place `5 * i` on
(`drop_flatMap_flatten`). `codec` says that batches and the arrays without a remainder are the same
thing, and that a rectangle is looked up in an array as in its batch: the earliest group with the
code counts.
-/

namespace EngineShell

namespace Batch

theorem flatten_injective : Function.Injective flatten := by
  rintro ⟨code, left, top, right, bottom⟩ ⟨code', left', top', right', bottom'⟩ h
  simpa [flatten] using h

theorem length_flatMap_flatten (rs : List GeometryRecord) :
    (rs.flatMap flatten).length = 5 * rs.length := by
  induction rs with
  | nil => rfl
  | cons r rs ih =>
    rw [List.flatMap_cons, List.length_append, ih, List.length_cons]
    simp only [flatten, List.length_cons, List.length_nil]
    omega

/-- Leaving out five integers leaves out a record. -/
theorem drop_flatMap_flatten (rs : List GeometryRecord) (i : Nat) :
    (rs.flatMap flatten).drop (5 * i) = (rs.drop i).flatMap flatten := by
  induction i generalizing rs with
  | zero => simp
  | succ i ih =>
    rcases rs with _ | ⟨r, rs⟩
    · simp
    · rw [List.drop_succ_cons, ← ih rs, List.flatMap_cons, Nat.mul_succ, Nat.add_comm,
        ← List.drop_drop]
      rfl

/-- The group with a number is the record with that number. -/
theorem take_drop_eq_flatten (rs : List GeometryRecord) (i : Nat) (r : GeometryRecord) :
    ((rs.flatMap flatten).drop (5 * i)).take 5 = flatten r ↔ rs[i]? = some r := by
  rw [drop_flatMap_flatten, ← List.head?_drop]
  rcases rs.drop i with _ | ⟨r', rest⟩
  · simp [flatten]
  · have htake : (((r' :: rest).flatMap flatten).take 5) = flatten r' := rfl
    rw [htake, flatten_injective.eq_iff, List.head?_cons, Option.some_inj]

theorem getElem?_flatMap_flatten (rs : List GeometryRecord) (i : Nat) :
    (rs.flatMap flatten)[5 * i]? = rs[i]?.map (·.code) := by
  rw [← List.head?_drop, drop_flatMap_flatten, ← List.head?_drop]
  rcases rs.drop i with _ | ⟨r, rest⟩ <;> rfl

/-- An array is read to its end if it has no remainder. -/
theorem isSome_group (data : List Int) : (group? data).isSome ↔ 5 ∣ data.length := by
  fun_induction group? data with
  | case1 => simp
  | case2 code left top right bottom rest ih =>
    rw [Option.isSome_map, ih]
    simp only [List.length_cons]
    omega
  | case3 data hnil hcons =>
    -- fewer than five integers are left, and at least one
    rcases data with _ | ⟨a, _ | ⟨b, _ | ⟨c, _ | ⟨d, _ | ⟨e, rest⟩⟩⟩⟩⟩
    · exact (hnil rfl).elim
    · simp
    · simp
    · simp
    · simp
    · exact (hcons a b c d e rest rfl).elim

theorem rectFor?_eq_some {b : Batch} {code : Int} {rect : Rect} :
    b.rectFor? code = some rect ↔ ∃ i : Nat, b.records[i]? = some ⟨code, rect⟩
      ∧ ∀ j < i, b.records[j]?.map (·.code) ≠ some code := by
  rw [rectFor?, Option.map_eq_some_iff]
  constructor
  · rintro ⟨r, hr, rfl⟩
    obtain ⟨hcode, i, hi, rfl, hbefore⟩ := List.find?_eq_some_iff_getElem.1 hr
    obtain rfl : b.records[i].code = code := by simpa using hcode
    refine ⟨i, List.getElem?_eq_getElem hi, fun j hj => ?_⟩
    rw [List.getElem?_eq_getElem (hj.trans hi)]
    simpa using hbefore j hj
  · rintro ⟨i, hi, hbefore⟩
    obtain ⟨hlt, heq⟩ := List.getElem?_eq_some_iff.1 hi
    refine ⟨⟨code, rect⟩, List.find?_eq_some_iff_getElem.2 ⟨by simp, i, hlt, heq, ?_⟩, rfl⟩
    intro j hj
    have := hbefore j hj
    rw [List.getElem?_eq_getElem (hj.trans hlt)] at this
    simpa using this

theorem rectFor?_eq_none {b : Batch} {code : Int} :
    b.rectFor? code = none ↔ ∀ i : Nat, b.records[i]?.map (·.code) ≠ some code := by
  rw [rectFor?, Option.map_eq_none_iff, List.find?_eq_none]
  constructor
  · intro h i hi
    obtain ⟨r, hr, hcode⟩ := Option.map_eq_some_iff.1 hi
    exact h r (List.mem_of_getElem? hr) (by simp [hcode])
  · intro h r hr hcode
    obtain ⟨i, hi⟩ := List.getElem?_of_mem hr
    exact h i (by simpa [hi] using hcode)

/-- A batch says what an array says: they have the same integers, and a code has the rectangle of
the earliest group that starts with it. -/
structure Reads (data : List Int) (b : Batch) : Prop where
  flat : b.toFlat = data
  found : ∀ code rect, b.rectFor? code = some rect ↔
    ∃ i : Nat, (data.drop (5 * i)).take 5 = flatten ⟨code, rect⟩ ∧ ∀ j < i, data[5 * j]? ≠ some code
  missing : ∀ code, b.rectFor? code = none ↔ ∀ i : Nat, data[5 * i]? ≠ some code

theorem reads_toFlat (b : Batch) : Reads b.toFlat b where
  flat := rfl
  found code rect := by
    simp only [rectFor?_eq_some, toFlat, take_drop_eq_flatten, getElem?_flatMap_flatten]
  missing code := by
    simp only [rectFor?_eq_none, toFlat, getElem?_flatMap_flatten]

/-- A batch can be read back from its array, which has five integers for each record; an array
whose length is a multiple of five is that of the batch read from it, and no other array is one. -/
theorem codec :
    (∀ b : Batch, ofFlat b.toFlat = .ok b ∧ b.toFlat.length = 5 * b.records.length)
      ∧ ∀ data : List Int, if 5 ∣ data.length then ∃ b, ofFlat data = .ok b ∧ Reads data b
        else ofFlat data = .error ⟨data.length⟩ := by
  refine ⟨fun b => ⟨ofFlat_toFlat b, length_flatMap_flatten b.records⟩, fun data => ?_⟩
  split_ifs with h
  · obtain ⟨rs, hrs⟩ := Option.isSome_iff_exists.1 ((isSome_group data).2 h)
    have hb : ofFlat data = .ok { records := rs } := by simp [ofFlat, hrs]
    have hflat := toFlat_ofFlat hb
    exact ⟨{ records := rs }, hb, hflat ▸ reads_toFlat { records := rs }⟩
  · have hnone : group? data = none := by
      rw [← Option.not_isSome_iff_eq_none, isSome_group]
      exact h
    simp [ofFlat, hnone]

end Batch

end EngineShell
