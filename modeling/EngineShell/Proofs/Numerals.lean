import EngineShell.Text.Number
import Mathlib.Data.Nat.Digits.Lemmas
import Mathlib.Tactic

/-!
# Numerals

What the readers of numbers take: `IsNumeral` says which number a text of digits spells, and
`readNat` and `readUnsigned` read exactly such texts, the second one after at most one plus sign.
-/

namespace EngineShell.Text

/-- A text of at least one ASCII digit, and the number that it spells in base ten. -/
structure IsNumeral (cs : List Char) (n : Nat) : Prop where
  ne_nil : cs ≠ []
  digits : ∀ c ∈ cs, c.isDigit = true
  value : n = Nat.ofDigits 10 (cs.reverse.map fun c => c.toNat - 48)

/-- A numeral, maybe after a plus sign. -/
def IsUnsigned (cs : List Char) (n : Nat) : Prop :=
  IsNumeral cs n ∨ ∃ ds, cs = '+' :: ds ∧ IsNumeral ds n

theorem isDigit_iff {c : Char} : c.isDigit = true ↔ 48 ≤ c.toNat ∧ c.toNat ≤ 57 := by
  rw [Char.isDigit, Bool.and_eq_true, decide_eq_true_eq, decide_eq_true_eq]
  exact and_congr UInt32.le_iff_toNat_le UInt32.le_iff_toNat_le

theorem digitValue?_eq_some {c : Char} {d : Nat} :
    digitValue? c = some d ↔ c.isDigit = true ∧ d = c.toNat - 48 := by
  unfold digitValue?
  rw [isDigit_iff]
  split_ifs with h
  · simp [h, eq_comm]
  · simp [h]

theorem readDigits_eq_some {n m : Nat} {cs : List Char} :
    readDigits n cs = some m ↔ (∀ c ∈ cs, c.isDigit = true)
      ∧ m = n * 10 ^ cs.length + Nat.ofDigits 10 (cs.reverse.map fun c => c.toNat - 48) := by
  induction cs generalizing n with
  | nil => simpa [readDigits] using eq_comm
  | cons c cs ih =>
    rw [readDigits, Option.bind_eq_some_iff, List.forall_mem_cons, List.reverse_cons,
      List.map_append, Nat.ofDigits_append, List.map_singleton, Nat.ofDigits_singleton,
      List.length_map, List.length_reverse, List.length_cons]
    -- `ofDigits` begins at the last digit, so the first one stands behind all the others
    constructor
    · rintro ⟨d, hd, hm⟩
      obtain ⟨hc, rfl⟩ := digitValue?_eq_some.1 hd
      obtain ⟨hcs, rfl⟩ := ih.1 hm
      exact ⟨⟨hc, hcs⟩, by ring⟩
    · rintro ⟨⟨hc, hcs⟩, rfl⟩
      exact ⟨_, digitValue?_eq_some.2 ⟨hc, rfl⟩, ih.2 ⟨hcs, by ring⟩⟩

theorem readNat_eq_some {cs : List Char} {n : Nat} : readNat cs = some n ↔ IsNumeral cs n := by
  unfold readNat
  rcases cs with _ | ⟨c, cs⟩
  · exact ⟨by simp, fun h => (h.ne_nil rfl).elim⟩
  · rw [List.isEmpty_cons, if_neg (by simp), readDigits_eq_some, Nat.zero_mul, Nat.zero_add]
    exact ⟨fun h => ⟨by simp, h.1, h.2⟩, fun h => ⟨h.digits, h.value⟩⟩

theorem readUnsigned_eq_some {cs : List Char} {n : Nat} :
    readUnsigned cs = some n ↔ IsUnsigned cs n := by
  unfold readUnsigned
  split
  · rename_i ds
    have hplus : ¬ IsNumeral ('+' :: ds) n := fun h => by
      simpa using h.digits '+' List.mem_cons_self
    simp [IsUnsigned, readNat_eq_some, hplus]
  · rename_i hplus
    rw [readNat_eq_some, IsUnsigned]
    exact ⟨.inl, fun h => h.resolve_right fun ⟨ds, hds, _⟩ => hplus ds hds⟩

theorem isNumeral_decimal (n : Nat) : IsNumeral (decimal n) n :=
  readNat_eq_some.1 (readNat_decimal n)

/-- A numeral spells one number. -/
theorem IsUnsigned.unique {cs : List Char} {n m : Nat} (hn : IsUnsigned cs n)
    (hm : IsUnsigned cs m) : n = m := by
  rw [← readUnsigned_eq_some] at hn hm
  exact Option.some.inj (hn.symm.trans hm)

/-- In a numeral there is nothing but digits and the sign. -/
theorem IsUnsigned.notMem {cs : List Char} {n : Nat} (h : IsUnsigned cs n) {c : Char}
    (hc : c.isDigit = false) (hplus : c ≠ '+') : c ∉ cs := by
  rcases h with h | ⟨ds, rfl, h⟩
  · intro hmem
    simp [h.digits c hmem] at hc
  · intro hmem
    rcases List.mem_cons.1 hmem with rfl | hmem
    · exact hplus rfl
    · simp [h.digits c hmem] at hc

end EngineShell.Text
