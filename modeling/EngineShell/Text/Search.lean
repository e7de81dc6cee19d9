/-!
# Words in text

Whether a word occurs in a text, the text in lower case, and its pieces between separators.
-/

namespace EngineShell.Text

/-- The text with its ASCII capitals in lower case. -/
def lower (cs : List Char) : List Char :=
  cs.map Char.toLower

def occurs (word : List Char) : List Char → Bool
  | [] => word.isEmpty
  | c :: cs => word.isPrefixOf (c :: cs) || occurs word cs

/-- The pieces of a text between the separators in it. There is one piece more than separators. -/
def split (sep : Char) : List Char → List (List Char)
  | [] => [[]]
  | c :: cs =>
    if c = sep then [] :: split sep cs
    else
      match split sep cs with
      | piece :: rest => (c :: piece) :: rest
      | [] => [[c]]

theorem split_of_notMem {sep : Char} {cs : List Char} (h : sep ∉ cs) : split sep cs = [cs] := by
  induction cs with
  | nil => rfl
  | cons c cs ih =>
    have hc : c ≠ sep := fun e => h (by simp [e])
    rw [split, if_neg hc, ih fun hm => h (List.mem_cons_of_mem c hm)]

theorem occurs_iff {word cs : List Char} : occurs word cs = true ↔ word <:+: cs := by
  induction cs with
  | nil => simp [occurs]
  | cons c cs ih => simp [occurs, List.infix_cons_iff, ih]

end EngineShell.Text
