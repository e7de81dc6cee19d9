import EngineShell.Proofs.Arrivals

/-!
# Calls that run tasks

A loop runs tasks in two kinds of calls: it drains the queue, or runs tasks until its state is as
wanted. `LoopRun.Serves` says which steps a call takes while others post, and `Loop.Drains` and
`Loop.Waits` how a call of either kind ends.
-/

namespace EngineShell

namespace LoopRun

variable {τ σ ε : Type}

/-- The steps of a call that runs tasks as long as the state is not as wanted and none has failed,
with the number of tasks it runs. Others may post at any time. -/
inductive Serves (run : τ → σ → TaskRun τ σ ε) (done : σ → Bool) :
    LoopRun τ σ ε → List (LoopStep τ) → Nat → Prop
  | stop (r : LoopRun τ σ ε) : Serves run done r [] 0
  | post {r : LoopRun τ σ ε} {steps : List (LoopStep τ)} {n : Nat} (t : τ)
    (h : Serves run done (r.take run (.post t)) steps n) : Serves run done r (.post t :: steps) n
  | send {r : LoopRun τ σ ε} {steps : List (LoopStep τ)} {n : Nat} {t : τ} {ts : List τ}
    (hu : r.unsent = t :: ts) (h : Serves run done (r.take run .send) steps n) :
    Serves run done r (.send :: steps) n
  | next {r : LoopRun τ σ ε} {steps : List (LoopStep τ)} {n : Nat} {t : τ} {rest : List τ}
    (hu : r.unsent = []) (hf : r.failure = none) (ht : r.loop.queue.tasks = t :: rest)
    (hd : done r.loop.state = false) (h : Serves run done (r.take run .next) steps n) :
    Serves run done r (.next :: steps) (n + 1)

variable {run : τ → σ → TaskRun τ σ ε} {done : σ → Bool} {r : LoopRun τ σ ε}
  {steps steps' : List (LoopStep τ)} {n m : Nat}

theorem Serves.append (h : Serves run done r steps n)
    (h' : Serves run done (r.takeAll run steps) steps' m) :
    Serves run done r (steps ++ steps') (n + m) := by
  induction h with
  | stop r => simpa using h'
  | post t h ih => exact .post t (ih h')
  | send hu h ih => exact .send hu (ih h')
  | next hu hf ht hd h ih =>
    rw [Nat.add_right_comm]
    exact .next hu hf ht hd (ih h')

/-- What a call does that wants something of the state, a drain may do as well. -/
theorem Serves.weaken (h : Serves run done r steps n) :
    Serves run (fun _ => false) r steps n := by
  induction h with
  | stop r => exact .stop r
  | post t h ih => exact .post t ih
  | send hu h ih => exact .send hu ih
  | next hu hf ht hd h ih => exact .next hu hf ht rfl ih

theorem Serves.gone_eq (h : Serves run done r steps n) :
    (r.takeAll run steps).loop.queue.gone = r.loop.queue.gone := by
  induction h with
  | stop r => rfl
  | post t h ih => exact ih.trans (TaskQueue.post_gone _ t)
  | send hu h ih =>
    rw [takeAll_cons, ih, take_send hu]
    exact TaskQueue.post_gone _ _
  | next hu hf ht hd h ih =>
    rw [takeAll_cons, ih, take_next hu ht]
    rfl

end LoopRun

namespace Loop

variable {τ σ ε : Type}

/-- The states in which tasks are taken that are run one after the other. -/
def found (run : τ → σ → TaskRun τ σ ε) (s : σ) (ts : List τ) : List σ :=
  (s :: (runs run s ts).map TaskRun.state).dropLast

theorem found_cons (run : τ → σ → TaskRun τ σ ε) (s : σ) (t : τ) (ts : List τ) :
    found run s (t :: ts) = s :: found run (run t s).state ts := rfl

end Loop

namespace LoopRun

variable {τ σ ε : Type} {run : τ → σ → TaskRun τ σ ε} {done : σ → Bool} {r : LoopRun τ σ ε}
  {steps steps' : List (LoopStep τ)} {n m : Nat}

/-- The tasks that a call runs: each was taken in a state that was not as wanted, and none behind
one that failed. -/
structure Ran (run : τ → σ → TaskRun τ σ ε) (done : σ → Bool) (r : LoopRun τ σ ε) (ts : List τ)
    (failure : Option ε) (n : Nat) : Prop where
  count : ts.length = n
  asked : ∀ s ∈ Loop.found run r.loop.state ts, done s = false
  failures : r.failure :: (Loop.runs run r.loop.state ts).map TaskRun.failure
    = List.replicate n none ++ [failure]

theorem Serves.ran (h : Serves run done r steps n) :
    Ran run done r (r.log run steps).executed (r.takeAll run steps).failure n := by
  induction h with
  | stop r => exact ⟨rfl, by simp [log, Loop.found, Loop.runs], rfl⟩
  | @post r steps n t h ih =>
    rw [log, TaskLog.executed_append, note, arrival_executed, List.nil_append]
    exact ⟨ih.count, ih.asked, ih.failures⟩
  | send hu h ih =>
    rw [log, TaskLog.executed_append, note_send hu, takeAll_cons]
    rw [take_send hu] at ih ⊢
    simpa using ⟨ih.count, ih.asked, ih.failures⟩
  | @next r steps n t rest hu hf ht hd h ih =>
    rw [log, TaskLog.executed_append, note_next hu ht, takeAll_cons, List.singleton_append]
    rw [take_next hu ht] at ih ⊢
    refine ⟨by rw [List.length_cons, ih.count], ?_, ?_⟩
    · rw [Loop.found_cons, List.forall_mem_cons]
      exact ⟨hd, ih.asked⟩
    · rw [hf, List.replicate_succ, List.cons_append, ← ih.failures]
      rfl

/-- If the last task has not failed, none has. -/
theorem Ran.smooth {ts : List τ} (h : Ran run done r ts none n) :
    ∀ did ∈ Loop.runs run r.loop.state ts, did.failure = none := by
  have hall : r.failure :: (Loop.runs run r.loop.state ts).map TaskRun.failure
      = List.replicate (n + 1) none := by
    rw [h.failures, List.replicate_succ']
  intro did hdid
  refine List.eq_of_mem_replicate (n := n + 1) ?_
  rw [← hall]
  exact List.mem_cons_of_mem _ (List.mem_map_of_mem hdid)

/-- If a task has failed, it is the last one. -/
theorem Ran.failed {ts : List τ} {e : ε} (hr : r.failure = none)
    (h : Ran run done r ts (some e) n) : ∃ before t, ts = before ++ [t]
      ∧ (run t (Loop.after run r.loop.state before)).failure = some e
      ∧ ∀ did ∈ Loop.runs run r.loop.state before, did.failure = none := by
  have hf := h.failures
  rcases List.eq_nil_or_concat ts with rfl | ⟨before, t, rfl⟩
  · rw [← h.count, hr] at hf
    simp [Loop.runs] at hf
  · rw [List.concat_eq_append, Loop.runs_concat, List.map_append, ← List.cons_append] at hf
    obtain ⟨hbefore, hlast⟩ := List.append_inj' hf rfl
    refine ⟨before, t, List.concat_eq_append, by simpa using hlast, fun did hdid => ?_⟩
    refine List.eq_of_mem_replicate (n := n) ?_
    rw [← hbefore]
    exact List.mem_cons_of_mem _ (List.mem_map_of_mem hdid)

/-- Nobody posts in these steps from outside the loop. -/
def Quiet (steps : List (LoopStep τ)) : Prop :=
  steps.filterMap LoopStep.posted? = []

theorem Quiet.append (h : Quiet steps) (h' : Quiet steps') : Quiet (steps ++ steps') := by
  rw [Quiet, List.filterMap_append, h, h', List.append_nil]

/-- The task that runs has posted all that it posts. -/
def flush (r : LoopRun τ σ ε) : LoopRun τ σ ε where
  loop := { r.loop with queue := r.loop.queue.postAll r.unsent }
  failure := r.failure

def sends (r : LoopRun τ σ ε) : List (LoopStep τ) :=
  List.replicate r.unsent.length .send

theorem quiet_sends (r : LoopRun τ σ ε) : Quiet r.sends := by
  simp [Quiet, sends, LoopStep.posted?]

theorem serves_sends (run : τ → σ → TaskRun τ σ ε) (done : σ → Bool) (r : LoopRun τ σ ε) :
    Serves run done r r.sends 0 ∧ r.takeAll run r.sends = r.flush := by
  obtain ⟨loop, unsent, failure⟩ := r
  induction unsent generalizing loop with
  | nil => exact ⟨.stop _, rfl⟩
  | cons t ts ih =>
    obtain ⟨hs, ht⟩ := ih (loop.post t)
    exact ⟨.send rfl hs, ht⟩

/-- A call has no more to run: what the last task posts is posted, and that task has failed or is
the last of the queue. -/
structure Through (r : LoopRun τ σ ε) : Prop where
  unsent : r.unsent = []
  tasks : r.failure = none → r.loop.queue.tasks = []

theorem through_or_next (run : τ → σ → TaskRun τ σ ε) (r : LoopRun τ σ ε) :
    ∃ steps n, Quiet steps ∧ Serves run (fun _ => false) r steps n
      ∧ ((r.takeAll run steps).Through ∨ n = 1) := by
  obtain ⟨hs, hflush⟩ := serves_sends run (fun _ => false) r
  have hu : (r.takeAll run r.sends).unsent = [] := by
    rw [hflush]
    rfl
  rcases hf : (r.takeAll run r.sends).failure with _ | e
  · rcases ht : (r.takeAll run r.sends).loop.queue.tasks with _ | ⟨t, rest⟩
    · exact ⟨_, 0, r.quiet_sends, hs, .inl ⟨hu, fun _ => ht⟩⟩
    · have hnext : Quiet ([.next] : List (LoopStep τ)) := rfl
      exact ⟨_, 1, r.quiet_sends.append hnext, hs.append (.next hu hf ht rfl (.stop _)), .inr rfl⟩
  · exact ⟨_, 0, r.quiet_sends, hs, .inl ⟨hu, by simp [hf]⟩⟩

/-- A drain can come to its end from wherever it is, if there is a bound on the tasks that it can
still run by itself. -/
theorem exists_through (bound : Nat) (r : LoopRun τ σ ε)
    (hb : ∀ steps n, Quiet steps → Serves run (fun _ => false) r steps n → n ≤ bound) :
    ∃ steps n, Quiet steps ∧ Serves run (fun _ => false) r steps n
      ∧ (r.takeAll run steps).Through := by
  induction bound generalizing r with
  | zero =>
    obtain ⟨steps, n, hq, hs, hend | rfl⟩ := through_or_next run r
    · exact ⟨steps, n, hq, hs, hend⟩
    · exact absurd (hb steps 1 hq hs) (by decide)
  | succ bound ih =>
    obtain ⟨steps, n, hq, hs, hend | rfl⟩ := through_or_next run r
    · exact ⟨steps, n, hq, hs, hend⟩
    -- behind the next task there is one task less to run
    · obtain ⟨more, m, hq', hs', hend⟩ := ih (r.takeAll run steps) fun more m hq' hs' => by
        have := hb _ _ (hq.append hq') (hs.append hs')
        omega
      exact ⟨steps ++ more, 1 + m, hq.append hq', hs.append hs', by rwa [takeAll_append]⟩

/-- A drain in which nobody else posts can go only one way. -/
theorem Serves.unique (h : Serves run (fun _ => false) r steps n)
    (h' : Serves run (fun _ => false) r steps' m) (hq : Quiet steps) (hq' : Quiet steps')
    (hend : (r.takeAll run steps).Through) (hend' : (r.takeAll run steps').Through) :
    steps = steps' ∧ n = m := by
  -- the state of the run leaves no choice between the steps that are not posts
  induction h generalizing steps' m with
  | stop r =>
    cases h' with
    | stop => exact ⟨rfl, rfl⟩
    | post t => simp [Quiet, LoopStep.posted?] at hq'
    | send hu => cases hend.unsent.symm.trans hu
    | next hu hf ht => cases (hend.tasks hf).symm.trans ht
  | post t h ih => simp [Quiet, LoopStep.posted?] at hq
  | send hu h ih =>
    cases h' with
    | stop => cases hend'.unsent.symm.trans hu
    | post t => simp [Quiet, LoopStep.posted?] at hq'
    | send hu' h' =>
      obtain ⟨rfl, rfl⟩ := ih h' hq hq' hend hend'
      exact ⟨rfl, rfl⟩
    | next hu' => simp [hu'] at hu
  | next hu hf ht hd h ih =>
    cases h' with
    | stop => cases (hend'.tasks hf).symm.trans ht
    | post t => simp [Quiet, LoopStep.posted?] at hq'
    | send hu' => simp [hu'] at hu
    | next hu' hf' ht' hd' h' =>
      obtain ⟨rfl, rfl⟩ := ih h' hq hq' hend hend'
      exact ⟨rfl, rfl⟩

end LoopRun

namespace Loop

variable {τ σ ε : Type}

/-- A drain takes some steps, with its end. It ends when the queue is empty, and returns how many
tasks it has run, or with a task that fails. -/
inductive Drains (run : τ → σ → TaskRun τ σ ε) (l : Loop τ σ) (steps : List (LoopStep τ))
    (l' : Loop τ σ) : Except ε Nat → Prop
  | ok {n : Nat} (h : LoopRun.Serves run (fun _ => false) { loop := l } steps n)
    (hl : LoopRun.takeAll run { loop := l } steps = { loop := l' }) (ht : l'.queue.tasks = []) :
    Drains run l steps l' (.ok n)
  | error {n : Nat} {e : ε} (h : LoopRun.Serves run (fun _ => false) { loop := l } steps n)
    (hl : LoopRun.takeAll run { loop := l } steps = { loop := l', failure := some e }) :
    Drains run l steps l' (.error e)

/-- A call that waits until the state is as wanted takes some steps. When it ends it says whether
the state is as wanted: if not, the time is over, which may happen between any two tasks. -/
inductive Waits (run : τ → σ → TaskRun τ σ ε) (done : σ → Bool) (l : Loop τ σ)
    (steps : List (LoopStep τ)) (l' : Loop τ σ) : Except ε LoopExit → Prop
  | ok {n : Nat} (h : LoopRun.Serves run done { loop := l } steps n)
    (hl : LoopRun.takeAll run { loop := l } steps = { loop := l' }) :
    Waits run done l steps l' (.ok (l'.look done))
  | error {n : Nat} {e : ε} (h : LoopRun.Serves run done { loop := l } steps n)
    (hl : LoopRun.takeAll run { loop := l } steps = { loop := l', failure := some e }) :
    Waits run done l steps l' (.error e)

/-- A run of a loop in several calls that wait, each for something else, and none of which fails. -/
inductive Cut (run : τ → σ → TaskRun τ σ ε) : Loop τ σ → List (LoopStep τ) → Loop τ σ → Prop
  | whole (l : Loop τ σ) : Cut run l [] l
  | piece {l l₁ l₂ : Loop τ σ} {steps steps' : List (LoopStep τ)} {done : σ → Bool}
    {exit : LoopExit} (h : Waits run done l steps l₁ (.ok exit)) (hc : Cut run l₁ steps' l₂) :
    Cut run l (steps ++ steps') l₂

variable {run : τ → σ → TaskRun τ σ ε} {done : σ → Bool} {l l₁ l₂ l' : Loop τ σ}
  {steps steps' : List (LoopStep τ)} {n m : Nat} {failure : Option ε}

/-- What a call does that runs some tasks: it takes them from the front of the queue and leaves the
others there, with what was accepted meanwhile, all in order. What these tasks post is accepted.
Each is taken in a state that is not as wanted, and only the last may fail. -/
structure Executes (run : τ → σ → TaskRun τ σ ε) (done : σ → Bool) (l : Loop τ σ) (g : TaskLog τ)
    (l' : Loop τ σ) (n : Nat) (failure : Option ε) : Prop where
  order : l.queue.tasks ++ g.accepted = g.executed ++ l'.queue.tasks
  count : g.executed.length = n
  state : l'.state = after run l.state g.executed
  sent : (runs run l.state g.executed).flatMap TaskRun.posts = g.sent
  heard : g.sent.Sublist g.accepted
  lost : g.lost = []
  asked : ∀ s ∈ found run l.state g.executed, done s = false
  smooth : failure = none → ∀ did ∈ runs run l.state g.executed, did.failure = none
  failed : ∀ e, failure = some e → ∃ before t, g.executed = before ++ [t]
    ∧ (run t (after run l.state before)).failure = some e
    ∧ ∀ did ∈ runs run l.state before, did.failure = none

theorem executes_of_serves (hg : l.queue.gone = false)
    (h : LoopRun.Serves run done { loop := l } steps n)
    (hl : LoopRun.takeAll run { loop := l } steps = { loop := l', failure }) :
    Executes run done l (LoopRun.log run { loop := l } steps) l' n failure := by
  have htidy : (LoopRun.mk l [] none : LoopRun τ σ ε).Tidy := ⟨by simp [hg], by simp⟩
  have ho := htidy.ordered run steps
  have hr := h.ran
  have hgone := h.gone_eq
  rw [hl] at ho hr hgone
  refine ⟨?_, hr.count, ho.state, ?_, ho.heard, (ho.intact (hgone.trans hg)).1, hr.asked, ?_, ?_⟩
  · have := ho.order
    rwa [(ho.intact (hgone.trans hg)).2, List.nil_append] at this
  · simpa using ho.sent
  · rintro rfl
    exact hr.smooth
  · rintro e rfl
    exact hr.failed rfl

theorem Drains.executes (hg : l.queue.gone = false) (hd : Drains run l steps l' (.ok n)) :
    l'.queue.tasks = []
      ∧ Executes run (fun _ => false) l (LoopRun.log run { loop := l } steps) l' n none := by
  cases hd with
  | ok h hl ht => exact ⟨ht, executes_of_serves hg h hl⟩

theorem Drains.executes_of_error {e : ε} (hg : l.queue.gone = false)
    (hd : Drains run l steps l' (.error e)) :
    ∃ n, Executes run (fun _ => false) l (LoopRun.log run { loop := l } steps) l' n (some e) := by
  cases hd with
  | error h hl => exact ⟨_, executes_of_serves hg h hl⟩

theorem Waits.executes {exit : LoopExit} (hg : l.queue.gone = false)
    (hw : Waits run done l steps l' (.ok exit)) :
    exit = l'.look done
      ∧ ∃ n, Executes run done l (LoopRun.log run { loop := l } steps) l' n none := by
  cases hw with
  | ok h hl => exact ⟨rfl, _, executes_of_serves hg h hl⟩

theorem Waits.executes_of_error {e : ε} (hg : l.queue.gone = false)
    (hw : Waits run done l steps l' (.error e)) :
    ∃ n, Executes run done l (LoopRun.log run { loop := l } steps) l' n (some e) := by
  cases hw with
  | error h hl => exact ⟨_, executes_of_serves hg h hl⟩

/-- Two drains that accept the same tasks have run the same tasks. -/
theorem Drains.agree (hg : l.queue.gone = false) (hd : Drains run l steps l₁ (.ok n))
    (hd' : Drains run l steps' l₂ (.ok m))
    (ha : (LoopRun.log run { loop := l } steps).accepted
      = (LoopRun.log run { loop := l } steps').accepted) : l₁.state = l₂.state ∧ n = m := by
  obtain ⟨ht, h⟩ := hd.executes hg
  obtain ⟨ht', h'⟩ := hd'.executes hg
  have horder := h.order
  rw [ha, h'.order, ht, ht', List.append_nil, List.append_nil] at horder
  rw [h.state, h'.state, ← h.count, ← h'.count, horder]
  exact ⟨rfl, rfl⟩

theorem Drains.serves {answer : Except ε Nat} (hd : Drains run l steps l' answer) :
    ∃ n failure, LoopRun.Serves run (fun _ => false) { loop := l } steps n
      ∧ LoopRun.takeAll run { loop := l } steps = { loop := l', failure }
      ∧ (LoopRun.takeAll run { loop := l } steps).Through
      ∧ answer = failure.elim (.ok n) .error := by
  cases hd with
  | ok h hl ht => exact ⟨_, none, h, hl, hl ▸ ⟨rfl, fun _ => ht⟩, rfl⟩
  | error h hl => exact ⟨_, some _, h, hl, hl ▸ ⟨rfl, nofun⟩, rfl⟩

theorem Drains.unique {answer answer' : Except ε Nat} (hd : Drains run l steps l₁ answer)
    (hq : LoopRun.Quiet steps) (hd' : Drains run l steps' l₂ answer')
    (hq' : LoopRun.Quiet steps') : l₁ = l₂ ∧ answer = answer' := by
  obtain ⟨n, failure, hs, hl, hend, rfl⟩ := hd.serves
  obtain ⟨n', failure', hs', hl', hend', rfl⟩ := hd'.serves
  obtain ⟨rfl, rfl⟩ := hs.unique hs' hq hq' hend hend'
  obtain ⟨rfl, -, rfl⟩ := LoopRun.mk.inj (hl.symm.trans hl')
  exact ⟨rfl, rfl⟩

/-- A drain that has begun comes to its end, if it can run only so many more tasks by itself. -/
theorem Drains.exists_of_serves
    (h : LoopRun.Serves run (fun _ => false) { loop := l } steps n) (bound : Nat)
    (hb : ∀ more m, LoopRun.Quiet more → LoopRun.Serves run (fun _ => false)
      (LoopRun.takeAll run { loop := l } steps) more m → m ≤ bound) :
    ∃ more l' answer, LoopRun.Quiet more ∧ Drains run l (steps ++ more) l' answer := by
  obtain ⟨more, m, hq, hs, hend⟩ := LoopRun.exists_through bound _ hb
  rw [← LoopRun.takeAll_append] at hend
  rcases hlast : LoopRun.takeAll run { loop := l } (steps ++ more) with ⟨l', unsent, _ | e⟩
  · rw [hlast] at hend
    obtain rfl : unsent = [] := hend.unsent
    exact ⟨more, l', _, hq, .ok (h.append hs) hlast (hend.tasks rfl)⟩
  · rw [hlast] at hend
    obtain rfl : unsent = [] := hend.unsent
    exact ⟨more, l', _, hq, .error (h.append hs) hlast⟩

theorem Cut.serves (hc : Cut run l steps l') :
    ∃ n, LoopRun.Serves run (fun _ => false) { loop := l } steps n
      ∧ LoopRun.takeAll run { loop := l } steps = { loop := l' } := by
  induction hc with
  | whole l => exact ⟨0, .stop _, rfl⟩
  | piece h hc ih =>
    obtain ⟨m, hm, hlast⟩ := ih
    cases h with
    | ok h hl =>
      exact ⟨_, h.weaken.append (hl ▸ hm), (LoopRun.takeAll_append_of_eq hl _).trans hlast⟩

theorem Drains.prepend (h : LoopRun.Serves run (fun _ => false) { loop := l } steps n)
    (hl : LoopRun.takeAll run { loop := l } steps = { loop := l₁ }) {answer : Except ε Nat}
    (hd : Drains run l₁ steps' l' answer) :
    Drains run l (steps ++ steps') l' (answer.map (· + n)) := by
  have htakeAll := LoopRun.takeAll_append_of_eq hl steps'
  cases hd with
  | ok h' hl' ht =>
    rw [Except.map, Nat.add_comm]
    exact .ok (h.append (hl ▸ h')) (htakeAll.trans hl') ht
  | error h' hl' => exact .error (h.append (hl ▸ h')) (htakeAll.trans hl')

theorem Waits.prepend (h : LoopRun.Serves run done { loop := l } steps n)
    (hl : LoopRun.takeAll run { loop := l } steps = { loop := l₁ }) {exit : Except ε LoopExit}
    (hw : Waits run done l₁ steps' l' exit) : Waits run done l (steps ++ steps') l' exit := by
  have htakeAll := LoopRun.takeAll_append_of_eq hl steps'
  cases hw with
  | ok h' hl' => exact .ok (h.append (hl ▸ h')) (htakeAll.trans hl')
  | error h' hl' => exact .error (h.append (hl ▸ h')) (htakeAll.trans hl')

/-- A drain behind a run that was cut is the end of one drain. -/
theorem Cut.drains {answer : Except ε Nat} (hc : Cut run l steps l₁)
    (hd : Drains run l₁ steps' l' answer) :
    ∃ m, Drains run l (steps ++ steps') l' (answer.map (· + m)) := by
  obtain ⟨m, hm, hlast⟩ := hc.serves
  exact ⟨m, hd.prepend hm hlast⟩

theorem Cut.drains_of_error {e : ε} (hc : Cut run l steps l₁)
    (hw : Waits run done l₁ steps' l' (.error e)) :
    Drains run l (steps ++ steps') l' (.error e) := by
  have hd : Drains run l₁ steps' l' (.error e) := by
    cases hw with
    | error h hl => exact .error h.weaken hl
  obtain ⟨m, hm⟩ := hc.drains hd
  exact hm

end Loop

end EngineShell
