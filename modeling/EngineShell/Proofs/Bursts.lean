import EngineShell.Taps
import Mathlib.Data.List.DropRight
import Mathlib.Tactic

/-!
# Bursts of taps

Which taps of a sequence fire, whatever their times: the history holds the last taps since one
fired, at most seven (`history_eq`), so that a tap is held against the seventh before it.
`bursts_verdicts` says this of every sequence, how often one can fire at most, and which sequences
in the order of time never do.
-/

namespace EngineShell

namespace Taps

/-- What taps at these times do, the first of them with an empty history. -/
def verdicts (times : List Nat) : List TapVerdict :=
  (({} : Taps).tapAll times).1

/-- What is remembered after taps at these times. -/
def history (times : List Nat) : Taps :=
  (({} : Taps).tapAll times).2

/-- How many taps there were since the last one that fired. -/
def sinceFired (vs : List TapVerdict) : Nat :=
  (vs.rtakeWhile (· = .recorded)).length

theorem fires_iff (t : Taps) (now : Nat) :
    t.fires now = true ↔ 7 ≤ t.times.length
      ∧ ∃ oldest, t.times.getLast? = some oldest ∧ oldest ≤ now ∧ now - oldest < 5000 := by
  unfold fires oldest? isFull capacity window
  rcases t.times.getLast? with _ | oldest
  · simp
  · simp [and_assoc]

theorem tap_of_fires {t : Taps} {now : Nat} (h : t.fires now = true) :
    t.tap now = (.fired, {}) := by
  rw [tap, if_pos h]

theorem tap_of_not_fires {t : Taps} {now : Nat} (h : ¬ t.fires now = true) :
    t.tap now = (.recorded, { times := (now :: t.times).take 7 }) := by
  rw [tap, if_neg h]
  rfl

theorem fired_tap (t : Taps) (now : Nat) : (t.tap now).1 = .fired ↔ t.fires now = true := by
  by_cases h : t.fires now = true
  · simp [tap_of_fires h, h]
  · simp [tap_of_not_fires h, h]

theorem tapAll_append (t : Taps) (xs ys : List Nat) :
    t.tapAll (xs ++ ys) = ((t.tapAll xs).1 ++ ((t.tapAll xs).2.tapAll ys).1,
      ((t.tapAll xs).2.tapAll ys).2) := by
  induction xs generalizing t with
  | nil => rfl
  | cons x xs ih => simp [tapAll, ih]

theorem length_tapAll (t : Taps) (times : List Nat) :
    (t.tapAll times).1.length = times.length := by
  induction times generalizing t with
  | nil => rfl
  | cons x xs ih => simp [tapAll, ih]

theorem length_verdicts (times : List Nat) : (verdicts times).length = times.length :=
  length_tapAll {} times

theorem verdicts_append (xs ys : List Nat) :
    verdicts (xs ++ ys) = verdicts xs ++ ((history xs).tapAll ys).1 := by
  rw [verdicts, tapAll_append, verdicts, history]

theorem verdicts_concat (times : List Nat) (now : Nat) :
    verdicts (times ++ [now]) = verdicts times ++ [((history times).tap now).1] :=
  verdicts_append times [now]

theorem history_concat (times : List Nat) (now : Nat) :
    history (times ++ [now]) = ((history times).tap now).2 := by
  rw [history, tapAll_append, history]
  rfl

theorem verdicts_take (times : List Nat) (n : Nat) :
    verdicts (times.take n) = (verdicts times).take n := by
  have hsplit := verdicts_append (times.take n) (times.drop n)
  rw [List.take_append_drop] at hsplit
  have hlen := length_verdicts (times.take n)
  rw [List.length_take] at hlen
  rcases Nat.le_total n times.length with hn | hn
  · rw [hsplit, List.take_left' (by omega)]
  · rw [List.take_of_length_le hn, List.take_of_length_le (by rw [length_verdicts]; omega)]

theorem getElem?_verdicts {times : List Nat} {i : Nat} (h : i < times.length) :
    (verdicts times)[i]? = some ((history (times.take i)).tap times[i]).1 := by
  have hlen : (verdicts (times.take i)).length = i := by
    rw [length_verdicts, List.length_take]
    omega
  calc (verdicts times)[i]?
      = ((verdicts times).take (i + 1))[i]? := (List.getElem?_take_of_lt (Nat.lt_succ_self i)).symm
    _ = (verdicts (times.take i ++ [times[i]]))[i]? := by
        rw [← verdicts_take, List.take_succ_eq_append_getElem h]
    _ = some ((history (times.take i)).tap times[i]).1 := by
        rw [verdicts_concat, List.getElem?_append_right hlen.le, hlen, Nat.sub_self]
        rfl

theorem sinceFired_fired (vs : List TapVerdict) : sinceFired (vs ++ [.fired]) = 0 := by
  rw [sinceFired, List.rtakeWhile_concat_neg _ _ _ (by simp)]
  rfl

theorem sinceFired_recorded (vs : List TapVerdict) :
    sinceFired (vs ++ [.recorded]) = sinceFired vs + 1 := by
  rw [sinceFired, List.rtakeWhile_concat_pos _ _ _ (by simp), List.length_append]
  rfl

theorem sinceFired_le (vs : List TapVerdict) : sinceFired vs ≤ vs.length :=
  (List.rtakeWhile_suffix _ vs).length_le

theorem sinceFired_of_not_mem {vs : List TapVerdict} (h : .fired ∉ vs) :
    sinceFired vs = vs.length := by
  have hall : vs.rtakeWhile (· = .recorded) = vs := by
    rw [List.rtakeWhile_eq_self_iff]
    intro v hv
    cases v with
    | recorded => simp
    | fired => exact absurd hv h
  rw [sinceFired, hall]

/-- The history holds the last taps since one fired, the newest first. -/
theorem history_eq (times : List Nat) :
    (history times).times = times.reverse.take (min 7 (sinceFired (verdicts times))) := by
  induction times using List.reverseRecOn with
  | nil => rfl
  | append_singleton times now ih =>
    rw [history_concat, verdicts_concat]
    by_cases h : (history times).fires now = true
    · rw [tap_of_fires h, sinceFired_fired]
      rfl
    · rw [tap_of_not_fires h, sinceFired_recorded, ih, List.reverse_append, List.reverse_singleton,
        List.singleton_append]
      -- the new tap pushes the eighth out
      have hmin : min 7 (sinceFired (verdicts times) + 1)
          = min 6 (min 7 (sinceFired (verdicts times))) + 1 := by omega
      rw [hmin, List.take_succ_cons, List.take_succ_cons, List.take_take]

/-- With seven taps or more since one fired, the oldest that is remembered is the seventh from the
end. -/
theorem oldest_history {times : List Nat} (h : 7 ≤ sinceFired (verdicts times)) :
    (history times).times.length = 7
      ∧ (history times).times.getLast? = times[times.length - 7]? := by
  have hle := sinceFired_le (verdicts times)
  rw [length_verdicts] at hle
  rw [history_eq, Nat.min_eq_left h]
  have hlen : (times.reverse.take 7).length = 7 := by
    rw [List.length_take, List.length_reverse]
    omega
  refine ⟨hlen, ?_⟩
  rw [List.getLast?_eq_getElem?, hlen, List.getElem?_take_of_lt (by omega),
    List.getElem?_reverse (by omega), Nat.sub_sub]

theorem fires_history_iff (times : List Nat) (now : Nat) :
    (history times).fires now = true ↔ 7 ≤ sinceFired (verdicts times)
      ∧ ∃ old, times[times.length - 7]? = some old ∧ old ≤ now ∧ now - old < 5000 := by
  rw [fires_iff]
  constructor
  · rintro ⟨hfull, hold⟩
    rw [history_eq, List.length_take] at hfull
    have hsince : 7 ≤ sinceFired (verdicts times) := by omega
    rw [(oldest_history hsince).2] at hold
    exact ⟨hsince, hold⟩
  · rintro ⟨hsince, hold⟩
    obtain ⟨hlen, hlast⟩ := oldest_history hsince
    rw [hlast]
    exact ⟨hlen.ge, hold⟩

theorem fired_iff {times : List Nat} {i : Nat} (h : i < times.length) :
    (verdicts times)[i]? = some .fired ↔ 7 ≤ sinceFired ((verdicts times).take i)
      ∧ times[i - 7] ≤ times[i] ∧ times[i] - times[i - 7] < 5000 := by
  have hlen : (times.take i).length = i := by
    rw [List.length_take]
    omega
  rw [getElem?_verdicts h, Option.some_inj, fired_tap, fires_history_iff, verdicts_take, hlen]
  refine and_congr_right fun hsince => ?_
  have hle := sinceFired_le ((verdicts times).take i)
  rw [List.length_take] at hle
  have hold : (times.take i)[i - 7]? = some times[i - 7] := by
    rw [List.getElem?_take_of_lt (by omega), List.getElem?_eq_getElem]
  simp [hold]

/-- Each tap that fires uses up seven others. -/
theorem count_fired_le (times : List Nat) :
    8 * (verdicts times).count .fired + sinceFired (verdicts times) ≤ times.length := by
  induction times using List.reverseRecOn with
  | nil => exact Nat.le_refl 0
  | append_singleton times now ih =>
    rw [verdicts_concat, List.count_append, List.length_append, List.length_singleton]
    by_cases h : (history times).fires now = true
    · -- the seven that it was held against pay for it
      have hsince := ((fires_history_iff times now).1 h).1
      rw [tap_of_fires h, sinceFired_fired, List.count_singleton_self]
      omega
    · rw [tap_of_not_fires h, sinceFired_recorded, List.count_singleton]
      simp only [beq_iff_eq, reduceCtorEq, ↓reduceIte]
      omega

theorem fired_not_mem_iff {times : List Nat} (hsorted : times.Pairwise (· ≤ ·)) :
    .fired ∉ verdicts times
      ↔ ∀ (i : Nat) (_ : i + 7 < times.length), 5000 ≤ times[i + 7] - times[i] := by
  constructor
  · intro hnone i hi
    have hrecorded : .fired ∉ (verdicts times).take (i + 7) :=
      fun h => hnone (List.mem_of_mem_take h)
    -- where none has fired, all taps so far count
    have hsince : 7 ≤ sinceFired ((verdicts times).take (i + 7)) := by
      rw [sinceFired_of_not_mem hrecorded, List.length_take, length_verdicts]
      omega
    have hle : times[i] ≤ times[i + 7] :=
      List.pairwise_iff_getElem.1 hsorted i (i + 7) _ hi (by omega)
    by_contra hspan
    have hfired := (fired_iff hi).2 ⟨hsince, by simpa using hle, by simpa using hspan⟩
    exact hnone (List.mem_of_getElem? hfired)
  · intro hspans hmem
    obtain ⟨i, hi⟩ := List.getElem?_of_mem hmem
    have hlt : i < times.length := by
      rw [← length_verdicts]
      exact (List.getElem?_eq_some_iff.1 hi).1
    obtain ⟨hsince, -, hspan⟩ := (fired_iff hlt).1 hi
    have hle := sinceFired_le ((verdicts times).take i)
    rw [List.length_take] at hle
    obtain ⟨j, rfl⟩ : ∃ j, i = j + 7 := ⟨i - 7, by omega⟩
    have := hspans j hlt
    simp only [Nat.add_sub_cancel] at hspan
    omega

/-- Which taps fire and what is remembered, told from the times of the taps. -/
structure Bursts (times : List Nat) (vs : List TapVerdict) : Prop where
  length_eq : vs.length = times.length
  fired_iff : ∀ (i : Nat) (_ : i < times.length), vs[i]? = some .fired ↔
    7 ≤ sinceFired (vs.take i) ∧ times[i - 7] ≤ times[i] ∧ times[i] - times[i - 7] < 5000
  remembered : ∀ n, (history (times.take n)).times
    = (times.take n).reverse.take (min 7 (sinceFired (vs.take n)))
  count_le : vs.count .fired ≤ times.length / 8
  none_iff : times.Pairwise (· ≤ ·) → (.fired ∉ vs ↔
    ∀ (i : Nat) (_ : i + 7 < times.length), 5000 ≤ times[i + 7] - times[i])

/-- A tap fires if and only if seven or more came since the last one that did and it is less than
five seconds later, and not earlier, than the seventh before it. -/
theorem bursts_verdicts (times : List Nat) : Bursts times (verdicts times) where
  length_eq := length_verdicts times
  fired_iff _ h := fired_iff h
  remembered n := by rw [history_eq, verdicts_take]
  count_le := by
    have := count_fired_le times
    omega
  none_iff := fired_not_mem_iff

example : verdicts [10000, 10100, 10200, 10300, 10400, 10500, 10600, 9000]
    = List.replicate 8 .recorded := by
  decide

end Taps

end EngineShell
