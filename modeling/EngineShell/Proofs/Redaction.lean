import EngineShell.Credentials
import Mathlib.Tactic

/-!
# Printed credentials

Every written character can be read back from the front of a text (`unescape?_escapeChar`), so a
quoted text ends where it ends, whatever it holds and whatever follows it (`quote_append_inj`).
Hence two credentials print alike only if they differ in nothing but the secret
(`debugText_eq_iff`).
-/

namespace EngineShell

namespace Text

def hexDigitValue (c : Char) : Nat :=
  if c.toNat < 97 then c.toNat - 48 else c.toNat - 87

def hexValue (cs : List Char) : Nat :=
  cs.foldl (fun n c => 16 * n + hexDigitValue c) 0

/-- The characters that have a short escape, by the letter of the escape. -/
def shortEscapes : List (Char × Char) :=
  [('"', '"'), ('\\', '\\'), ('n', '\n'), ('r', '\r'), ('t', '\t'), ('0', Char.ofNat 0)]

/-- The character whose written form a text starts with, and what follows the form. -/
def unescape? : List Char → Option (Char × List Char)
  | '\\' :: 'u' :: '\x7b' :: cs =>
    some (.ofNat (hexValue (cs.takeWhile (· ≠ '\x7d'))), (cs.dropWhile (· ≠ '\x7d')).tail)
  | '\\' :: c :: cs => (shortEscapes.lookup c).map (·, cs)
  | c :: cs => some (c, cs)
  | [] => none

theorem hexDigit_spec {n : Nat} (h : n < 16) :
    hexDigitValue (hexDigit n) = n ∧ hexDigit n ≠ '\x7d' := by
  interval_cases n <;> decide

theorem hexValue_hexadecimal (n : Nat) : hexValue (hexadecimal n) = n := by
  fun_induction hexadecimal n with
  | case1 n h => simp [hexValue, (hexDigit_spec h).1]
  | case2 n h ih =>
    have hlast := (hexDigit_spec (n.mod_lt (by omega : 16 > 0))).1
    rw [hexValue, List.foldl_append, ← hexValue, ih, List.foldl_cons, List.foldl_nil, hlast]
    omega

theorem brace_notMem_hexadecimal (n : Nat) : '\x7d' ∉ hexadecimal n := by
  fun_induction hexadecimal n with
  | case1 n h => simpa using (hexDigit_spec h).2.symm
  | case2 n h ih =>
    have hlast := (hexDigit_spec (n.mod_lt (by omega : 16 > 0))).2
    simp [ih, hlast.symm]

theorem unescape?_escapeChar (c : Char) (rest : List Char) :
    unescape? (escapeChar c ++ rest) = some (c, rest) := by
  unfold escapeChar
  split_ifs with hquote hback hline hreturn htab hzero hinvisible
  · subst hquote
    rfl
  · subst hback
    rfl
  · subst hline
    rfl
  · subst hreturn
    rfl
  · subst htab
    rfl
  · have hc : Char.ofNat 0 = c := by rw [← hzero, Char.ofNat_toNat]
    subst hc
    rfl
  · have hbrace : ∀ d ∈ hexadecimal c.toNat, decide (d ≠ '\x7d') = true := by
      intro d hd
      have : d ≠ '\x7d' := fun e => brace_notMem_hexadecimal _ (e ▸ hd)
      simpa using this
    simp only [List.cons_append, List.append_assoc, List.nil_append, unescape?,
      List.takeWhile_append_of_pos hbrace, List.dropWhile_append_of_pos hbrace]
    simp [hexValue_hexadecimal]
  · simp [unescape?, hback]

theorem escapeChar_append_inj {c d : Char} {x y : List Char}
    (h : escapeChar c ++ x = escapeChar d ++ y) : c = d ∧ x = y := by
  have hread := unescape?_escapeChar c x
  rw [h, unescape?_escapeChar] at hread
  simpa [eq_comm] using hread

/-- No written form starts as the end of a quoted text does. -/
theorem escapeChar_append_ne (c : Char) (x y : List Char) : escapeChar c ++ x ≠ '"' :: y := by
  unfold escapeChar
  split_ifs <;> simp [*]

theorem flatMap_escapeChar_inj {as bs x y : List Char}
    (h : as.flatMap escapeChar ++ '"' :: x = bs.flatMap escapeChar ++ '"' :: y) :
    as = bs ∧ x = y := by
  induction as generalizing bs with
  | nil =>
    rcases bs with _ | ⟨b, bs⟩
    · simpa using h
    · rw [List.flatMap_cons, List.append_assoc] at h
      exact (escapeChar_append_ne _ _ _ h.symm).elim
  | cons a as ih =>
    rcases bs with _ | ⟨b, bs⟩
    · rw [List.flatMap_cons, List.append_assoc] at h
      exact (escapeChar_append_ne _ _ _ h).elim
    · rw [List.flatMap_cons, List.flatMap_cons, List.append_assoc, List.append_assoc] at h
      obtain ⟨rfl, hrest⟩ := escapeChar_append_inj h
      obtain ⟨rfl, rfl⟩ := ih hrest
      exact ⟨rfl, rfl⟩

theorem quote_append_inj {s t : String} {x y : List Char}
    (h : (quote s).toList ++ x = (quote t).toList ++ y) : s = t ∧ x = y := by
  simp only [quote, String.toList_ofList, List.cons_append, List.append_assoc, List.nil_append,
    List.cons.injEq, true_and] at h
  obtain ⟨hlist, hrest⟩ := flatMap_escapeChar_inj h
  exact ⟨String.toList_injective hlist, hrest⟩

end Text

namespace Credentials

open Text

/-- Credentials have the same printed form if and only if they agree in all but the secret. -/
theorem debugText_eq_iff (c d : Credentials) :
    c.debugText = d.debugText ↔ c.username = d.username ∧ c.repository = d.repository := by
  delta debugText
  constructor
  · intro h
    have hlist := congrArg String.toList h
    simp only [String.toList_append, List.append_assoc] at hlist
    obtain ⟨huser, hrest⟩ := quote_append_inj (List.append_cancel_left hlist)
    -- the secret's place is the same for both: its name, what stands for it and the next name
    have hrepository := List.append_cancel_left (List.append_cancel_left
      (List.append_cancel_left hrest))
    exact ⟨huser, (quote_append_inj hrepository).1⟩
  · rintro ⟨huser, hrepository⟩
    rw [huser, hrepository]

end Credentials

end EngineShell
