import EngineShell.Proofs.Locators

/-!
# Writing locators down again

A written locator spells what was read, whatever was dropped on the way: the blanks at both ends,
the plus sign of a port and its leading zeros. So the text of a locator that was read is its
canonical spelling, and no other such locator has it.
-/

namespace EngineShell

theorem Text.isBlank_of_isDigit {c : Char} (h : c.isDigit = true) : isBlank c = false := by
  rw [isDigit_iff] at h
  simp only [isBlank, Bool.or_eq_false_iff, Bool.and_eq_false_iff, decide_eq_false_iff_not,
    beq_eq_false_iff_ne]
  omega

theorem Text.clean_decimal (n : Nat) : Clean (decimal n) := fun c hc =>
  isBlank_of_isDigit ((isNumeral_decimal n).digits c hc)

namespace Locator

variable {t : List Char} {l : Locator}

theorem isPort_decimal {port : List Char} {n : Nat} (h : IsPort port n) :
    IsPort (Text.decimal n) n :=
  ⟨.inl (Text.isNumeral_decimal n), h.2⟩

/-- The text of a spelled locator spells it too. -/
theorem Spelling.text (h : Spelling t l) : Spelling l.text.toList l := by
  cases h with
  | group hne hslash => simpa [Locator.text] using Spelling.group hne hslash
  | user hu hgroup => simpa [Locator.text] using Spelling.user hu hgroup
  | host hhost hat hslash hport hgroup =>
    simpa [Locator.text] using Spelling.host hhost hat hslash (isPort_decimal hport) hgroup
  | userHost hu hhost hslash hport hgroup =>
    simpa [Locator.text] using Spelling.userHost hu hhost hslash (isPort_decimal hport) hgroup

/-- No blanks come into a locator that is written down. -/
theorem Spelling.clean_text (h : Spelling t l) (hclean : Text.Clean t) :
    Text.Clean l.text.toList := by
  cases h <;> simp_all [Locator.text, Text.clean_decimal]

theorem Spelling.isSome_host (h : Spelling t l) : l.host.isSome = l.port.isSome := by
  cases h <;> rfl

/-- A spelled locator is read from its text. -/
theorem Spelling.parse_text (h : Spelling t l) (hclean : Text.Clean t) :
    parse l.text = .ok l := by
  have hc := h.clean_text hclean
  rw [parse_eq_ok_iff, Text.trim_eq_iff.2 hc.trims]
  exact ⟨hc, h.text⟩

theorem parse_text_of_parse {raw : String} (h : parse raw = .ok l) : parse l.text = .ok l :=
  have hspell := parse_eq_ok_iff.1 h
  hspell.2.parse_text hspell.1

/-- How the locators that can be read are written down. -/
structure Reprints (l : Locator) : Prop where
  reads : parse l.text = .ok l
  injective (raw : String) (l' : Locator) : parse raw = .ok l' → l'.text = l.text → l' = l
  reprints (l' : Locator) : parse l.text = .ok l' → l'.text = l.text
  placed : l.host.isSome = l.port.isSome

/-- A locator that was read is read again from its text, and from no other locator's text. -/
theorem reprints_of_parse {raw : String} {l : Locator} (h : parse raw = .ok l) : Reprints l where
  reads := parse_text_of_parse h
  injective raw' l' h' htext := by
    have hread := parse_text_of_parse h'
    rw [htext, parse_text_of_parse h] at hread
    exact (Except.ok.inj hread).symm
  reprints l' h' := by
    rw [parse_text_of_parse h] at h'
    rw [Except.ok.inj h']
  placed := (parse_eq_ok_iff.1 h).2.isSome_host

/-- What the text of this one drops: the blanks, the plus sign and the zeros of the port. -/
theorem reprints_plus_port :
    parse "  a@b@c::+0080/x/@y " = .ok ⟨some "a", some "b@c:", some 80, "x/@y"⟩ ∧
      Reprints ⟨some "a", some "b@c:", some 80, "x/@y"⟩ :=
  have h : parse "  a@b@c::+0080/x/@y " = .ok ⟨some "a", some "b@c:", some 80, "x/@y"⟩ := by rfl
  ⟨h, reprints_of_parse h⟩

end Locator

end EngineShell
