import EngineShell.Proofs.Terminations

/-!
# Commands carried out at once

`Direct` is what is seen of a host without a queue: it carries out each command when the engine
sends it, and shows the outcome of a session at the moment the session ends. What a list of
commands comes to is settled by the first of them that ends the session (`foldl_carry`): those
before it write on the overlay, and those behind it are only counted.
-/

namespace EngineShell

def Dispatch.counter : Dispatch → Counter
  | applied | terminate _ => .applied
  | ignored => .ignored
  | rejected _ => .rejected
  | query _ => .query

theorem Dispatch.counter_ne (d : Dispatch) : d.counter ≠ .task ∧ d.counter ≠ .afterClose := by
  cases d <;> simp [counter]

/-- Whether a command ends the session. -/
def Command.ends (c : Command) : Bool :=
  c.termination?.isSome

namespace Widgets

/-- What a command is counted as under the lenient policy, and the widgets after it. -/
def carry (w : Widgets) (c : Command) : Counter × Widgets :=
  match w.apply .lenient false c with
  | .ok (d, w) => (d.counter, w)
  | .error _ => (.rejected, w)

/-- The lenient policy tolerates every command, and whether the host finishes is nothing to the
widgets. -/
theorem apply_lenient (w : Widgets) (c : Command) (finishing : Bool) :
    ∃ d, w.apply .lenient finishing c = .ok (d, (w.carry c).2) ∧ d.counter = (w.carry c).1 := by
  have hperform : ∀ {action : Action}, action ≠ .queryFinishing →
      w.perform finishing action c.argument = w.perform false action c.argument := by
    intro action h
    cases action <;> first | rfl | exact (h rfl).elim
  unfold carry apply
  rcases c.action? with _ | action
  · exact ⟨_, rfl, rfl⟩
  · by_cases hq : action = .queryFinishing
    · subst hq
      exact ⟨_, rfl, rfl⟩
    · simp only [hperform hq]
      rcases w.perform false action c.argument with v | ⟨d, w'⟩
      · exact ⟨.rejected v, rfl, rfl⟩
      · exact ⟨d, rfl, rfl⟩

theorem carry_ne (w : Widgets) (c : Command) :
    (w.carry c).1 ≠ .task ∧ (w.carry c).1 ≠ .afterClose := by
  obtain ⟨d, -, hd⟩ := w.apply_lenient c false
  exact hd ▸ d.counter_ne

def carryAll (w : Widgets) (cs : List Command) : Widgets :=
  cs.foldl (fun w c => (w.carry c).2) w

theorem carry_of_termination {c : Command} {o : Outcome} (h : c.termination? = some o)
    (w : Widgets) : w.carry c = (.applied, w) := by
  rw [carry, apply_eq_terminate_iff.2 ⟨h, rfl⟩]
  rfl

end Widgets

/-- A command is noted as the lenient policy has it. -/
def Host.noted (h : Host) (c : Command) : Turn :=
  Turn.note { host := h } (h.shown.overlay.carry c).2 (h.shown.overlay.carry c).1

/-- Under the lenient policy a command of a session is noted, and may end the session. -/
theorem Host.onCommand_lenient {h : Host} (hp : h.policy = .lenient) (hs : h.slot ≠ .idle)
    (hd : h.dispatching ≠ none) (c : Command) :
    Turn.onCommand { host := h } c = .ok (match c.termination? with
      | some o => (h.noted c).terminate o
      | none => h.noted c) := by
  obtain ⟨k, hk⟩ := Option.ne_none_iff_exists'.1 hd
  obtain ⟨d, happly, hcounter⟩ := h.shown.overlay.apply_lenient c (h.platform.sink k).finishing
  simp only [Turn.onCommand, noted, hs, if_false, hk, hp, happly, ← hcounter]
  rcases ht : c.termination? with _ | o
  · cases d with
    | terminate o =>
      have := (Widgets.apply_eq_terminate_iff.1 happly).1
      simp [ht] at this
    | _ => rfl
  · rw [Widgets.apply_eq_terminate_iff.2 ⟨ht, rfl⟩, Except.ok.injEq, Prod.mk.injEq] at happly
    obtain ⟨rfl, -⟩ := happly
    rfl

namespace Metrics

theorem record_comm (m : Metrics) (a b : Counter) :
    (m.record a).record b = (m.record b).record a := by
  cases a <;> cases b <;> rfl

@[simp] theorem afterClose_add (a b : Metrics) :
    (a + b).afterClose = a.afterClose + b.afterClose := rfl

theorem afterClose_record (m : Metrics) {counter : Counter} (h : counter ≠ .afterClose) :
    (m.record counter).afterClose = m.afterClose := by
  cases counter <;> first | rfl | exact (h rfl).elim

end Metrics

namespace LoginFlow

/-- An outcome leaves the overlay alone, and nobody counts it as a command. -/
theorem overlay_onOutcome (l : LoginFlow) (o : Outcome) :
    (l.onOutcome o).board.shown.overlay = l.board.shown.overlay
      ∧ (l.onOutcome o).metrics.afterClose = l.metrics.afterClose := by
  cases hf : l.isFatal
  · rw [onOutcome_of_not_fatal hf]
    cases o with
    | fatal m =>
      simp only [showFatal]
      split_ifs <;> exact ⟨rfl, rfl⟩
    | _ => exact ⟨rfl, rfl⟩
  · rw [onOutcome_of_fatal hf]
    exact ⟨rfl, rfl⟩

end LoginFlow

/-- What is seen of a host that carries out commands at once: the form and the presentation, the
slot, the outcomes that the form has got, and what is counted. -/
structure Direct where
  login : LoginFlow
  slot : Slot
  received : List Outcome := []
  counts : Metrics := {}

namespace Direct

def overlay (d : Direct) : Widgets :=
  d.login.board.shown.overlay

def count (d : Direct) (counter : Counter) : Direct :=
  { d with counts := d.counts.record counter }

/-- Questions are counted. -/
def ask (d : Direct) (n : Nat) : Direct :=
  { d with counts := { d.counts with queries := d.counts.queries + n } }

/-- Commands that come too late are counted. -/
def late (d : Direct) (n : Nat) : Direct :=
  { d with counts := { d.counts with afterClose := d.counts.afterClose + n } }

/-- A command writes on the overlay, and is counted. -/
def note (d : Direct) (c : Command) : Direct :=
  { d with
    login := d.login.present fun p => { p with overlay := (d.overlay.carry c).2 }
    counts := d.counts.record (d.overlay.carry c).1 }

def close (d : Direct) : Direct :=
  { d with
    slot := .idle
    login := d.login.present fun p => { p with overlayAttached := false } }

def receive (d : Direct) (o : Outcome) : Direct :=
  { d with login := d.login.onOutcome o, received := d.received ++ [o] }

/-- A command is carried out while there is a session. -/
def carry (d : Direct) (c : Command) : Direct :=
  if d.slot = .idle then d.count .afterClose
  else
    match c.termination? with
    | some o => ((d.note c).close).receive o
    | none => d.note c

/-- The engine sends a command. The question whether the host finishes is only counted. -/
def obey (d : Direct) (c : Command) : Direct :=
  if c.code = Action.queryFinishing.code then d.count .query else d.carry c

variable {d : Direct}

@[simp] theorem overlay_note (d : Direct) (c : Command) :
    (d.note c).overlay = (d.overlay.carry c).2 := rfl

@[simp] theorem received_note (d : Direct) (c : Command) : (d.note c).received = d.received := rfl

@[simp] theorem slot_note (d : Direct) (c : Command) : (d.note c).slot = d.slot := rfl

theorem carry_of_idle (h : d.slot = .idle) (c : Command) : d.carry c = d.count .afterClose :=
  if_pos h

theorem carry_of_not_idle (h : d.slot ≠ .idle) (c : Command) :
    d.carry c = match c.termination? with
      | some o => ((d.note c).close).receive o
      | none => d.note c :=
  if_neg h

theorem carry_count (d : Direct) (counter : Counter) (c : Command) :
    (d.count counter).carry c = (d.carry c).count counter := by
  by_cases h : d.slot = .idle
  · rw [carry_of_idle h, carry_of_idle (d := d.count counter) h]
    simp only [count, Metrics.record_comm]
  · rw [carry_of_not_idle h, carry_of_not_idle (d := d.count counter) h]
    split <;> simp only [count, note, close, receive, overlay, Metrics.record_comm]

theorem foldl_carry_of_idle (h : d.slot = .idle) (cs : List Command) :
    cs.foldl carry d = d.late cs.length := by
  induction cs generalizing d with
  | nil => rfl
  | cons c cs ih =>
    rw [List.foldl_cons, carry_of_idle h, ih (d := d.count .afterClose) h, List.length_cons]
    simp [count, late, Metrics.record, Nat.add_assoc, Nat.add_comm 1]

theorem foldl_carry_count (d : Direct) (counter : Counter) (cs : List Command) :
    cs.foldl carry (d.count counter) = (cs.foldl carry d).count counter := by
  induction cs generalizing d with
  | nil => rfl
  | cons c cs ih => rw [List.foldl_cons, List.foldl_cons, carry_count, ih]

/-- Everything that is counted, also by the form. -/
def metrics (d : Direct) : Metrics :=
  d.counts + d.login.metrics

theorem afterClose_note (d : Direct) (c : Command) :
    (d.note c).metrics.afterClose = d.metrics.afterClose := by
  simp [metrics, note, LoginFlow.present, Metrics.afterClose_record _ (d.overlay.carry_ne c).2]

/-- What a list of commands comes to while there is a session. Those before the first that ends the
session write on the overlay, that one is the session's outcome, and those behind it are counted as
late and do nothing else. -/
structure Settles (d : Direct) (cs : List Command) (d' : Direct) : Prop where
  overlay : d'.overlay = d.overlay.carryAll (cs.takeWhile (!·.ends))
  received : d'.received = d.received ++ (cs.findSome? Command.termination?).toList
  slot : d'.slot = if cs.any Command.ends then .idle else d.slot
  login : d'.login
    = ((cs.takeWhile (!·.ends) ++ (cs.dropWhile (!·.ends)).take 1).foldl carry d).login
  afterClose : d'.metrics.afterClose
    = d.metrics.afterClose + (cs.dropWhile (!·.ends)).tail.length

theorem settles_foldl (h : d.slot ≠ .idle) (cs : List Command) :
    d.Settles cs (cs.foldl carry d) := by
  induction cs generalizing d with
  | nil =>
    refine ⟨rfl, ?_, rfl, rfl, rfl⟩
    exact (List.append_nil _).symm
  | cons c cs ih =>
    rcases ht : c.termination? with _ | o
    · have hends : c.ends = false := by simp [Command.ends, ht]
      have hcarry : d.carry c = d.note c := by rw [carry_of_not_idle h, ht]
      obtain ⟨ho, hr, hs, hl, ha⟩ := ih (d := d.note c) h
      refine ⟨?_, ?_, ?_, ?_, ?_⟩
      · simpa [hends, hcarry, Widgets.carryAll] using ho
      · simpa [ht, hcarry] using hr
      · simpa [hends, hcarry] using hs
      · simpa [hends, hcarry] using hl
      · simpa [hends, hcarry, afterClose_note] using ha
    · have hends : c.ends = true := by simp [Command.ends, ht]
      have hcarry : d.carry c = ((d.note c).close).receive o := by rw [carry_of_not_idle h, ht]
      have hidle : (d.carry c).slot = .idle := by rw [hcarry]; rfl
      obtain ⟨ho, ha⟩ := (d.note c).close.login.overlay_onOutcome o
      have hoverlay : (d.carry c).overlay = d.overlay := by
        rw [hcarry]
        exact ho.trans (congrArg Prod.snd (Widgets.carry_of_termination ht d.overlay))
      have hcount : (d.carry c).metrics.afterClose = d.metrics.afterClose := by
        rw [hcarry, ← afterClose_note d c]
        exact congrArg ((d.note c).counts.afterClose + ·) ha
      rw [List.foldl_cons, foldl_carry_of_idle hidle]
      refine ⟨?_, ?_, ?_, ?_, ?_⟩
      · rw [List.takeWhile_cons_of_neg (by simp [hends])]
        exact hoverlay
      · simp [late, ht, hcarry, receive, close]
      · simp [late, hends, hidle]
      · simp [late, hends]
      · rw [List.dropWhile_cons_of_neg (by simp [hends]), List.tail_cons, ← hcount]
        simp only [late, metrics, Metrics.afterClose_add]
        omega

theorem Settles.ask {cs : List Command} {d' : Direct} (h : d.Settles cs d') (n : Nat) :
    d.Settles cs (d'.ask n) :=
  ⟨h.overlay, h.received, h.slot, h.login, h.afterClose⟩

/-- What the engine sends is carried out, but for its questions. -/
theorem foldl_obey (d : Direct) (cs : List Command) : ∃ n, cs.foldl obey d
    = ((cs.filter (·.code ≠ Action.queryFinishing.code)).foldl carry d).ask n := by
  induction cs generalizing d with
  | nil => exact ⟨0, rfl⟩
  | cons c cs ih =>
    rw [List.foldl_cons, obey]
    split_ifs with h
    · obtain ⟨n, hn⟩ := ih (d.count .query)
      refine ⟨n + 1, ?_⟩
      rw [hn, foldl_carry_count, List.filter_cons_of_neg (by simpa using h)]
      simp [ask, count, Metrics.record, Nat.add_assoc, Nat.add_comm 1]
    · obtain ⟨n, hn⟩ := ih (d.carry c)
      refine ⟨n, ?_⟩
      rw [hn, List.filter_cons_of_pos (by simpa using h), List.foldl_cons]

end Direct

end EngineShell
