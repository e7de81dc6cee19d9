import Mathlib.Tactic

/-!
# Patterns

Regular expressions with named captures. `Pattern.ways` lists the ways in which a pattern matches
the beginning of a text, the preferred ones first: repetitions and options take what they can before
they give it back. `captures` is the first way that leaves nothing of the text. Where a repetition
is followed by a character that stops it, there is only one way (`flatMap_stretches`).
-/

namespace EngineShell

/-- A regular expression whose parts may be captured. Repetitions and options are greedy. -/
inductive Pattern where
  | char (p : Char → Bool)
  | many (p : Char → Bool)
  | option (r : Pattern)
  | capture (name : String) (r : Pattern)
  | seq (r r' : Pattern)

/-- A way in which a pattern matches the beginning of a text. -/
structure Match where
  matched : List Char
  rest : List Char
  captured : List (String × List Char) := []
  deriving DecidableEq, Repr

namespace Pattern

/-- The ways to take characters of a class off a text, the longest one first. -/
def stretches (p : Char → Bool) : List Char → List (List Char × List Char)
  | [] => [([], [])]
  | c :: cs =>
    (if p c then (stretches p cs).map fun r => (c :: r.1, r.2) else []) ++ [([], c :: cs)]

/-- What a match comes to with one of the text behind it. -/
def extend (m m' : Match) : Match where
  matched := m.matched ++ m'.matched
  rest := m'.rest
  captured := m.captured ++ m'.captured

def ways : Pattern → List Char → List Match
  | char p, cs =>
    match cs with
    | [] => []
    | c :: cs => if p c then [{ matched := [c], rest := cs }] else []
  | many p, cs => (stretches p cs).map fun r => { matched := r.1, rest := r.2 }
  | option r, cs => r.ways cs ++ [{ matched := [], rest := cs }]
  | capture name r, cs =>
    (r.ways cs).map fun m => { m with captured := (name, m.matched) :: m.captured }
  | seq r r', cs => (r.ways cs).flatMap fun m => (r'.ways m.rest).map (extend m)

/-- What a pattern captures of a text that it matches as a whole. -/
def captures (r : Pattern) (cs : List Char) : Option (List (String × List Char)) :=
  ((r.ways cs).find? (·.rest.isEmpty)).map (·.captured)

section

variable {p : Char → Bool} {cs xs ys : List Char}

/-- A class that takes all of a text prefers to do so. -/
theorem stretches_of_all (h : ∀ c ∈ cs, p c = true) :
    ∃ shorter, stretches p cs = (cs, []) :: shorter := by
  induction cs with
  | nil => exact ⟨[], rfl⟩
  | cons c cs ih =>
    rw [List.forall_mem_cons] at h
    obtain ⟨shorter, hs⟩ := ih h.2
    rw [stretches, if_pos h.1, hs]
    exact ⟨_, rfl⟩

/-- Where what follows cannot begin within a class, only the longest stretch counts. -/
theorem flatMap_stretches {β : Type} {f : List Char × List Char → List β}
    (hxs : ∀ c ∈ xs, p c = true) (hys : ∀ c ∈ ys.head?, p c = false)
    (hf : ∀ taken c cs, p c = true → f (taken, c :: cs) = []) :
    (stretches p (xs ++ ys)).flatMap f = f (xs, ys) := by
  induction xs generalizing f with
  | nil =>
    rcases ys with _ | ⟨c, ys⟩
    · simp [stretches]
    · simp [stretches, hys c rfl]
  | cons c xs ih =>
    rw [List.forall_mem_cons] at hxs
    rw [List.cons_append, stretches, if_pos hxs.1, List.flatMap_append, List.flatMap_map,
      ih hxs.2 fun taken => hf (c :: taken)]
    -- what is left is the empty stretch, before a character of the class
    simp [hf _ _ _ hxs.1]

/-- A captured stretch that is followed by what cannot begin within it. -/
theorem ways_stretch (name : String) {r : Pattern} (hxs : ∀ c ∈ xs, p c = true)
    (hys : ∀ c ∈ ys.head?, p c = false) (hr : ∀ c cs, p c = true → r.ways (c :: cs) = []) :
    ((capture name (many p)).seq r).ways (xs ++ ys)
      = (r.ways ys).map (extend { matched := xs, rest := ys, captured := [(name, xs)] }) := by
  simp only [ways, List.map_map, List.flatMap_map]
  refine flatMap_stretches hxs hys fun taken c cs hc => ?_
  simp [hr c cs hc]

/-- The first way of a pattern decides what it captures, if it leaves nothing. -/
theorem captures_of_ways {r : Pattern} {m : Match} {others : List Match}
    (h : r.ways cs = m :: others) (hm : m.rest = []) : r.captures cs = some m.captured := by
  simp [captures, h, hm]

end

end Pattern

end EngineShell
