import EngineShell.Settings.Reading
import Mathlib.Tactic

/-!
# Texts of environment variables

The text of a variable is read as a truth value, a whole number, a fraction or just a text
(`ReadsAs`), before anything asks what it is for. Where a text is wanted after all, the value is
written out again, and it comes back unchanged exactly if it is spelled as the value is written
(`asText?_ofVariable_iff`).
-/

namespace EngineShell

namespace SettingValue

def truthWord (b : Bool) : String :=
  if b then "true" else "false"

/-- The value that the text of a variable is read as. -/
inductive ReadsAs (text : String) : SettingValue → Prop where
  | truth (b : Bool) : String.ofList (Text.lower text.toList) = truthWord b →
      ReadsAs text (bool b)
  | whole (i : Int) : (∀ b, String.ofList (Text.lower text.toList) ≠ truthWord b) →
      Text.readInt64 text.toList = some i → ReadsAs text (int i)
  | fraction (x : Binary64) : (∀ b, String.ofList (Text.lower text.toList) ≠ truthWord b) →
      Text.readInt64 text.toList = none → Decimal.readNumber text.toList = some x →
      ReadsAs text (number x)
  | words : (∀ b, String.ofList (Text.lower text.toList) ≠ truthWord b) →
      Text.readInt64 text.toList = none → Decimal.readNumber text.toList = none →
      ReadsAs text (SettingValue.text text)

theorem readsAs_ofVariable (text : String) : ReadsAs text (ofVariable text) := by
  unfold ofVariable
  dsimp only
  split_ifs with htrue hfalse
  · exact .truth true htrue
  · exact .truth false hfalse
  · have hword : ∀ b, String.ofList (Text.lower text.toList) ≠ truthWord b := by
      rintro (_ | _) h
      · exact hfalse h
      · exact htrue h
    rcases hint : Text.readInt64 text.toList with _ | i
    · rcases hnumber : Decimal.readNumber text.toList with _ | x
      · exact .words hword hint hnumber
      · exact .fraction x hword hint hnumber
    · exact .whole i hword hint

/-- A text that is spelled as the program spells the truth value or the number that a variable with
this text is read as, if it is read as one. -/
structure IsVerbatim (text : String) : Prop where
  truth : ∀ b, String.ofList (Text.lower text.toList) = truthWord b → text = truthWord b
  whole : ∀ i, Text.readInt64 text.toList = some i → text = String.ofList (Text.decimalInt i)
  fraction : ∀ x, Text.readInt64 text.toList = none → Decimal.readNumber text.toList = some x →
    text = x.text

theorem isVerbatim_truthWord (b : Bool) : IsVerbatim (truthWord b) where
  truth b' h := by revert h; cases b <;> cases b' <;> decide
  whole i h := by cases b <;> cases h
  fraction x _ h := by cases b <;> cases h

/-- The text of a variable comes back from the value that it is read as if and only if it is spelled
as that value is. -/
theorem asText?_ofVariable_iff (text : String) :
    (ofVariable text).asText? = some text ↔ IsVerbatim text := by
  have h := readsAs_ofVariable text
  generalize ofVariable text = v at h
  cases h with
  | truth b hb =>
    refine ⟨fun h => ?_, fun h => congrArg some (h.truth b hb).symm⟩
    obtain rfl := Option.some.inj h
    exact isVerbatim_truthWord b
  | whole i hword hi =>
    refine ⟨fun h => ⟨fun b hb => (hword b hb).elim, fun j hj => ?_, fun x hnone => ?_⟩,
      fun h => congrArg some (h.whole i hi).symm⟩
    · obtain rfl := Option.some.inj (hi.symm.trans hj)
      exact (Option.some.inj h).symm
    · cases hi.symm.trans hnone
  | fraction x hword hi hx =>
    refine ⟨fun h => ⟨fun b hb => (hword b hb).elim, fun j hj => ?_, fun y _ hy => ?_⟩,
      fun h => congrArg some (h.fraction x hi hx).symm⟩
    · cases hi.symm.trans hj
    · obtain rfl := Option.some.inj (hx.symm.trans hy)
      exact (Option.some.inj h).symm
  | words hword hi hx =>
    refine ⟨fun _ => ⟨fun b hb => (hword b hb).elim, fun j hj => ?_, fun y _ hy => ?_⟩,
      fun _ => rfl⟩
    · cases hi.symm.trans hj
    · cases hx.symm.trans hy

end SettingValue

end EngineShell
