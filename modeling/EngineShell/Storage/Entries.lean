/-!
# Ordered entries

A map from texts to texts that remembers the order in which its keys came. A key that is written
again keeps its place (`keys_put`), and each key reads as it was last written (`get_put`).
-/

namespace EngineShell

/-- The first entry of a key is the one that is found. -/
theorem lookup_cons_eq_ite {α β : Type} [DecidableEq α] (e : α × β) (es : List (α × β)) (k : α) :
    (e :: es).lookup k = if k = e.1 then some e.2 else es.lookup k := by
  rw [List.lookup_cons]
  by_cases h : k = e.1
  · rw [if_pos h, beq_iff_eq.2 h]
  · rw [if_neg h, beq_eq_false_iff_ne.2 h]

/-- Keys with their values, each key once, in order of insertion. -/
abbrev Entries := List (String × String)

namespace Entries

def get? (m : Entries) (key : String) : Option String :=
  m.lookup key

def put (key value : String) : Entries → Entries
  | [] => [(key, value)]
  | e :: es => if e.1 = key then (key, value) :: es else e :: put key value es

/-- Write several keys in order. -/
def putAll (m : Entries) (news : Entries) : Entries :=
  news.foldl (fun m e => put e.1 e.2 m) m

theorem get_put (m : Entries) (key value k : String) :
    get? (put key value m) k = if k = key then some value else get? m k := by
  unfold get?
  induction m with
  | nil => exact lookup_cons_eq_ite (key, value) [] k
  | cons e es ih =>
    by_cases h : e.1 = key
    · rw [put, if_pos h, lookup_cons_eq_ite, lookup_cons_eq_ite, h]
      split <;> rfl
    · rw [put, if_neg h, lookup_cons_eq_ite, lookup_cons_eq_ite, ih]
      by_cases hk : k = e.1
      · rw [if_pos hk, if_neg (hk ▸ h), if_pos hk]
      · rw [if_neg hk, if_neg hk]

theorem keys_put (m : Entries) (key value : String) :
    (put key value m).map (·.1)
      = if key ∈ m.map (·.1) then m.map (·.1) else m.map (·.1) ++ [key] := by
  induction m with
  | nil => rfl
  | cons e es ih =>
    by_cases h : e.1 = key
    · simp [put, h]
    · simp only [put, h, if_false, List.map_cons, ih]
      by_cases hk : key ∈ es.map (·.1)
      · simp_all
      · have : ¬ key ∈ e.1 :: es.map (·.1) := by simp_all [eq_comm]
        rw [if_neg hk, if_neg this]
        rfl

end Entries

end EngineShell
