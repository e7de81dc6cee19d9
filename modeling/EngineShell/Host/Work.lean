import EngineShell.Host.Handlers

/-!
# The tasks of a host

What each task of a host does on the presentation thread. Events, commands and completions weigh
more than outcomes; a turn posts at most one outcome (`postedWeight_handle`,
`postedWeight_onCommand`, `postedWeight_onOpened`) and an outcome posts nothing, so a host is work
for a loop.
-/

namespace EngineShell

def HostTask.weight : HostTask → Nat
  | outcome .. => 1
  | _ => 2

namespace Turn

def postedWeight (t : Turn) : Nat :=
  totalWeight HostTask.weight t.posts

@[simp] theorem posts_modify (t : Turn) (f : Host → Host) : (t.modify f).posts = t.posts := rfl

@[simp] theorem host_modify (t : Turn) (f : Host → Host) : (t.modify f).host = f t.host := rfl

@[simp] theorem postedWeight_modify (t : Turn) (f : Host → Host) :
    (t.modify f).postedWeight = t.postedWeight := rfl

theorem postedWeight_postOutcome (t : Turn) (attempt : Nat) (delivered : Option Outcome) :
    (t.postOutcome attempt delivered).postedWeight ≤ t.postedWeight + 1 := by
  cases delivered <;>
    simp [postOutcome, postedWeight, totalWeight_append, totalWeight, HostTask.weight]

theorem postedWeight_finish (t : Turn) (s : Session) (o : Outcome) :
    (t.finish s o).postedWeight ≤ t.postedWeight + 1 :=
  postedWeight_postOutcome _ _ _

theorem postedWeight_terminate (t : Turn) (o : Outcome) :
    (t.terminate o).postedWeight ≤ t.postedWeight + 1 := by
  unfold terminate
  split
  · omega
  · simp
  · simpa using postedWeight_finish (t.modify fun h => { h with slot := .idle }) _ o

theorem postedWeight_handle (t : Turn) (e : HostEvent) :
    (t.handle e).postedWeight ≤ t.postedWeight + 1 := by
  cases e with
  | backPressed =>
    simp only [handle, onBack]
    split
    · simp
    · exact postedWeight_terminate t .success
  | destroy => exact postedWeight_terminate (t.modify _) .success
  | windowFocusChanged focused => cases focused <;> simp [handle]
  | _ => simp [handle]

theorem postedWeight_onCommand {t t' : Turn} {c : Command} (h : t.onCommand c = .ok t') :
    t'.postedWeight ≤ t.postedWeight + 1 := by
  unfold onCommand at h
  split at h
  · cases h; simp
  · split at h
    · cases h; omega
    · simp only at h
      split at h
      · cases h
      · split at h <;> cases h <;> try simp
        exact postedWeight_terminate _ _

theorem postedWeight_onOpened (t : Turn) (s : Session) (failure : Option Outcome)
    (c : Credentials) : (t.onOpened s failure c).postedWeight ≤ t.postedWeight + 1 := by
  unfold onOpened
  split
  · simp only
    have hkept : (if s.accepted then
          (t.modify fun h => { h with slot := .idle }).modify (·.persist c)
        else t.modify fun h => { h with slot := .idle }).postedWeight = t.postedWeight := by
      split <;> simp
    split
    · simp [hkept]
    · rw [← hkept]
      unfold enterLive
      split
      · exact postedWeight_finish _ _ _
      · simp
  · simp

end Turn

namespace Host

theorem handlers_hooks (h : Host) (kind : EventKind) :
    h.hooks.handlers kind
      = Turn.handle :: (h.observers.filter fun o => o.1 == kind).map fun o => observer o.2 := by
  refine (Hooks.handlers_foldl_on observer h.observers _ kind).trans ?_
  cases kind <;> rfl

theorem postedWeight_observers (labels : List (EventKind × String)) (t : Turn) (e : HostEvent) :
    ((labels.map fun o => observer o.2).foldl (fun t handler => handler t e) t).postedWeight
      = t.postedWeight := by
  induction labels generalizing t with
  | nil => rfl
  | cons o labels ih => simpa [observer] using ih (observer o.2 t e)

theorem postedWeight_handle (h : Host) (e : HostEvent) : (h.handle e).2.postedWeight ≤ 1 := by
  simp only [handle, Hooks.dispatch, handlers_hooks, List.foldl_cons, postedWeight_observers]
  exact Turn.postedWeight_handle { host := h } e

end Host

namespace HostTask

/-- Run a task. A command that the policy does not tolerate fails and leaves the host alone. -/
def run (task : HostTask) (h : Host) : TaskRun HostTask Host Violation :=
  match task with
  | event e => ofTurn (h.handle e).2
  | command _ c =>
    match ({ host := h } : Turn).onCommand c with
    | .ok t => ofTurn t
    | .error v => { state := h, failure := some v }
  | outcome _ o => ofTurn (({ host := h } : Turn).onOutcome o)
  | opened s failure c => ofTurn (({ host := h } : Turn).onOpened s failure c)
where
  /-- What a turn did. -/
  ofTurn (t : Turn) : TaskRun HostTask Host Violation :=
    { state := t.host, posts := t.posts }

def work : Work HostTask Host Violation where
  run := run
  weight := weight
  posts_lt := by
    intro t h
    cases t with
    | event e => exact Nat.lt_succ_of_le (h.postedWeight_handle e)
    | command k c =>
      simp only [run]
      split
      · rename_i t ht
        exact Nat.lt_succ_of_le (Turn.postedWeight_onCommand ht)
      · simp [weight, totalWeight]
    | outcome k o => simp [run, run.ofTurn, Turn.onOutcome, Turn.modify, weight, totalWeight]
    | opened s failure c =>
      exact Nat.lt_succ_of_le (Turn.postedWeight_onOpened { host := h } s failure c)

end HostTask

end EngineShell
