import EngineShell.Proofs.Balance

/-!
# Whose outcome, whose command

The ledger of a run notes which attempt was started for which submission, and what each attempt's
session has sent. Tasks carry no more than the number of their attempt, and the form does not even
look at that; still an outcome that is shown answers the submission that its own attempt was
started for, once, and a command that is carried out comes from the newest attempt
(`attributed_takeAll`).
-/

namespace EngineShell

namespace HostTask

/-- The outcome that a task shows. -/
def outcome? : HostTask → Option (Nat × Outcome)
  | outcome k o => some (k, o)
  | _ => none

theorem outcome?_eq_some {t : HostTask} {k : Nat} {o : Outcome} :
    t.outcome? = some (k, o) ↔ t = .outcome k o := by
  cases t <;> simp [outcome?]

end HostTask

namespace HostLoop

/-- The submission that a step takes. -/
def submission? (l : HostLoop) (step : HostStep) : Option Credentials :=
  match l.event? step with
  | some (.loginClicked c) =>
    if l.state.created && !l.state.destroyed && (l.state.login.submit c).toOption.isSome then some c
    else none
  | _ => none

/-- The outcomes that sessions send in a step, each with the number of its attempt. -/
def sends (l : HostLoop) (step : HostStep) : List (Nat × Outcome) :=
  match step with
  | .answer i a =>
    match l.state.workers[i]? with
    | some w =>
      if w.stage = .opening then
        (w.session.conclude l.state.platform a).delivered.toList.map (w.session.sink, ·)
      else []
    | none => []
  | _ =>
    match l.turn? step with
    | some (_, t) => t.posts.filterMap HostTask.outcome?
    | none => []

/-- The commands that the engine gets through in a step, each with the number of its sink. -/
def commands (l : HostLoop) : HostStep → List (Nat × Command)
  | .command k c => (l.state.platform.apply k c).1.posted.toList.map (k, ·)
  | _ => []

end HostLoop

/-- What is on record of a run: the attempts with the credentials they were started with, the
outcomes sent and the commands posted through the sink of each, and the outcomes shown. -/
structure Ledger where
  started : List (Nat × Credentials) := []
  sent : List (Nat × Outcome) := []
  posted : List (Nat × Command) := []
  shown : List (Nat × Outcome) := []

namespace HostLoop

/-- Note a step. -/
def note (l : HostLoop) (g : Ledger) (step : HostStep) : Ledger where
  started := g.started ++ (l.submission? step).toList.map (l.attempts, ·)
  sent := g.sent ++ l.sends step
  posted := g.posted ++ l.commands step
  shown := g.shown ++ ((l.task? step).bind HostTask.outcome?).toList

/-- The ledger of a run. -/
def ledger (l : HostLoop) : List HostStep → Ledger → Ledger
  | [], g => g
  | step :: steps, g => (l.take step).ledger steps (l.note g step)

theorem ledger_concat (l : HostLoop) (steps : List HostStep) (step : HostStep) (g : Ledger) :
    l.ledger (steps ++ [step]) g = (l.takeAll steps).note (l.ledger steps g) step := by
  induction steps generalizing l g with
  | nil => rfl
  | cons s steps ih => exact ih (l.take s) (l.note g s)

/-- What the ledger has to do with a loop. -/
structure Recorded (g : Ledger) (l : HostLoop) : Prop where
  numbered : g.started.map (·.1) = List.range l.attempts
  pending : ∀ c, l.state.login.pending = some c → g.started.getLast?.map (·.2) = some c
  workers : ∀ w ∈ l.state.workers, (w.session.sink, w.credentials) ∈ g.started
  ended : ∀ w ∈ l.state.workers, ∀ failure o, w.stage = .ended failure (some o) →
    (w.session.sink, o) ∈ g.sent
  outcomes : ∀ k o, HostTask.outcome k o ∈ l.queue.tasks → (k, o) ∈ g.sent
  commands : ∀ k c, HostTask.command k c ∈ l.queue.tasks → (k, c) ∈ g.posted
  shown : ∀ k o, (k, o) ∈ g.shown →
    k < l.attempts ∧ (k + 1 = l.attempts → l.state.login.pending = none)

variable {lost : Nat} {g : Ledger} {l l' : HostLoop} {t : Turn} {step : HostStep}

theorem submission?_eq_some {c : Credentials} :
    l.submission? step = some c
      ↔ l.event? step = some (.loginClicked c) ∧ l.state.takes = true := by
  unfold submission?
  split
  · rename_i c' he
    rw [← Host.takes_eq, he]
    cases l.state.takes <;> simp
  · rename_i he
    constructor
    · simp
    · rintro ⟨he', -⟩
      exact (he _ he').elim

/-- An outcome that is shown is the newest attempt's, whose submission is answered by it. -/
theorem Balanced.shown_step (hb : l.Balanced lost) {k : Nat} {o : Outcome}
    (h : (l.task? step).bind HostTask.outcome? = some (k, o)) :
    l.state.login.isPending = true ∧ k + 1 = l.attempts ∧ (l.take step).attempts = l.attempts
      ∧ (l.take step).state.login.pending = none := by
  obtain ⟨task, ht, ho⟩ := Option.bind_eq_some_iff.1 h
  rw [HostTask.outcome?_eq_some] at ho
  subst ho
  cases step with
  | runTask =>
    rcases hq : l.queue.tasks with _ | ⟨task, rest⟩
    · simp [task?, hq] at ht
    simp only [task?, hq, List.head?_cons, Option.some.injEq] at ht
    subst ht
    have ha := hb.accounts
    rw [errands_pop hq, HostTask.errands, Multiset.singleton_add] at ha
    obtain ⟨hp, hk, -⟩ := ha.present
    have htake : l.take .runTask = l.pop.land (Turn.onOutcome { host := l.state } o) :=
      runTask_cons hq
    rw [htake]
    exact ⟨hp, hk, rfl, l.state.login.pending_onOutcome o⟩
  | _ => simp [task?] at ht

theorem sends_turn (h : l.turn? step = some (l', t)) :
    l.sends step = t.posts.filterMap HostTask.outcome? := by
  cases step with
  | handle e => simp [sends, h]
  | runTask => simp [sends, h]
  | _ => simp [turn?] at h

theorem mem_shown {k : Nat} {o : Outcome} (h : (k, o) ∈ (l.note g step).shown) :
    (k, o) ∈ g.shown ∨ (l.task? step).bind HostTask.outcome? = some (k, o) := by
  simpa [note, eq_comm] using h

theorem Recorded.launch (hr : Recorded g l) (hb : l.Balanced lost)
    (h : l.turn? step = some (l', t)) {c : Credentials} (hc : l.submission? step = some c)
    (hl : l.state.Launches t.host c) (hp : t.posts = []) :
    Recorded (l.note g step) (l.take step) := by
  have hstarted : (l.note g step).started = g.started ++ [(l.attempts, c)] := by simp [note, hc]
  have hstate : (l.take step).state = t.host := by rw [take_turn h, land]
  have hn : (l.take step).attempts = l.attempts + 1 := by
    simp [attempts, hstate, hl.platform, Platform.addSink]
  have hw : (l.take step).state.workers
      = l.state.workers ++ [{ session := l.state.newSession, credentials := c }] :=
    hstate ▸ hl.workers
  have hold : ∀ u ∈ (l.take step).queue.tasks, u ∈ l.queue.tasks := by
    intro u hu
    rcases mem_land (take_turn h ▸ hu) with hu | hu
    · exact mem_of_turn h hu
    · simp [hp] at hu
  refine ⟨?_, ?_, ?_, ?_, ?_, ?_, ?_⟩
  · rw [hstarted, hn, List.map_append, hr.numbered, List.range_succ, List.map_singleton]
  · intro c' hc'
    rw [hstate, hl.pending] at hc'
    simpa [hstarted] using hc'
  · intro w hmem
    rw [hw, List.mem_append, List.mem_singleton] at hmem
    rw [hstarted, List.mem_append]
    rcases hmem with hmem | rfl
    · exact .inl (hr.workers w hmem)
    · exact .inr (List.mem_singleton_self _)
  · intro w hmem failure o hstage
    rw [hw, List.mem_append, List.mem_singleton] at hmem
    rcases hmem with hmem | rfl
    · exact List.mem_append_left _ (hr.ended w hmem failure o hstage)
    · cases hstage
  · exact fun k o ho => List.mem_append_left _ (hr.outcomes k o (hold _ ho))
  · exact fun k c hc => List.mem_append_left _ (hr.commands k c (hold _ hc))
  · intro k o hk
    rcases mem_shown hk with hk | hk
    · have := (hr.shown k o hk).1
      exact ⟨by omega, by omega⟩
    · obtain ⟨-, -, hn', -⟩ := hb.shown_step hk
      omega

theorem Recorded.steady (hr : Recorded g l) (hb : l.Balanced lost) (h : l.turn? step = some (l', t))
    (hc : l.submission? step = none) (ht : Turn.Steady l.state t) :
    Recorded (l.note g step) (l.take step) := by
  have hstarted : (l.note g step).started = g.started := by simp [note, hc]
  have hstate : (l.take step).state = t.host := by rw [take_turn h, land]
  have hn : (l.take step).attempts = l.attempts := by
    rw [attempts, hstate]
    exact ht.attempts
  have hw : (l.take step).state.workers = l.state.workers := hstate ▸ ht.workers
  refine ⟨?_, ?_, ?_, ?_, ?_, ?_, ?_⟩
  · rw [hstarted, hn]
    exact hr.numbered
  · intro c hc
    rw [hstate] at hc
    rw [hstarted]
    rcases ht.pending with hp | hp
    · exact hr.pending c (hp ▸ hc)
    · simp [hp] at hc
  · rw [hw, hstarted]
    exact hr.workers
  · rw [hw]
    exact fun w hmem failure o hs => List.mem_append_left _ (hr.ended w hmem failure o hs)
  · intro k o ho
    rcases mem_land (take_turn h ▸ ho) with ho | ho
    · exact List.mem_append_left _ (hr.outcomes k o (mem_of_turn h ho))
    · refine List.mem_append_right _ ?_
      rw [sends_turn h, List.mem_filterMap]
      exact ⟨_, ho, rfl⟩
  · intro k c hc
    rcases mem_land (take_turn h ▸ hc) with hc | hc
    · exact List.mem_append_left _ (hr.commands k c (mem_of_turn h hc))
    · obtain ⟨k', o, heq⟩ := ht.posts _ hc
      cases heq
  · intro k o hk
    rw [hn, hstate]
    rcases mem_shown hk with hk | hk
    · refine ⟨(hr.shown k o hk).1, fun hlast => ?_⟩
      rcases ht.pending with hp | hp
      · exact hp.trans ((hr.shown k o hk).2 hlast)
      · exact hp
    · obtain ⟨-, hk', -, hp⟩ := hb.shown_step hk
      exact ⟨by omega, fun _ => hstate ▸ hp⟩

theorem note_offThread (g : Ledger) (hs : step.isTurn = false) :
    (l.note g step).started = g.started ∧ (l.note g step).shown = g.shown := by
  cases step with
  | handle e => simp [HostStep.isTurn] at hs
  | runTask => simp [HostStep.isTurn] at hs
  | _ => simp [note, submission?, event?, task?]

/-- What has to be shown of a step of another thread: what it changes of the workers and of the
queue. -/
theorem Recorded.offThread (hr : Recorded g l) (hs : step.isTurn = false)
    (hn : l'.attempts = l.attempts) (hl : l'.state.login = l.state.login)
    (hw : ∀ w ∈ l'.state.workers, ∃ w' ∈ l.state.workers,
      w.session.sink = w'.session.sink ∧ w.credentials = w'.credentials
        ∧ ∀ failure o, w.stage = .ended failure (some o) →
          w'.stage = .ended failure (some o) ∨ (w.session.sink, o) ∈ l.sends step)
    (hq : ∀ u ∈ l'.queue.tasks, u ∈ l.queue.tasks
      ∨ (∀ k o, u = .outcome k o → (k, o) ∈ g.sent)
        ∧ ∀ k c, u = .command k c → (k, c) ∈ l.commands step) :
    Recorded (l.note g step) l' := by
  have hnote := l.note_offThread g hs
  refine ⟨?_, ?_, ?_, ?_, ?_, ?_, ?_⟩
  · rw [hnote.1, hn]
    exact hr.numbered
  · rw [hnote.1, hl]
    exact hr.pending
  · intro w hmem
    obtain ⟨w', hmem', hsink, hc, -⟩ := hw w hmem
    rw [hnote.1, hsink, hc]
    exact hr.workers w' hmem'
  · intro w hmem failure o hstage
    obtain ⟨w', hmem', hsink, -, hended⟩ := hw w hmem
    rcases hended failure o hstage with hstage | hsent
    · rw [hsink]
      exact List.mem_append_left _ (hr.ended w' hmem' failure o hstage)
    · exact List.mem_append_right _ hsent
  · intro k o ho
    refine List.mem_append_left _ ?_
    rcases hq _ ho with ho | ⟨ho, -⟩
    · exact hr.outcomes k o ho
    · exact ho k o rfl
  · intro k c hc
    rcases hq _ hc with hc | ⟨-, hc⟩
    · exact List.mem_append_left _ (hr.commands k c hc)
    · exact List.mem_append_right _ (hc k c rfl)
  · rw [hnote.2, hn, hl]
    exact hr.shown

theorem Recorded.unchanged (hr : Recorded g l) (hs : step.isTurn = false) :
    Recorded (l.note g step) l :=
  hr.offThread hs rfl rfl (fun w hw => ⟨w, hw, rfl, rfl, fun _ _ => .inl⟩) fun _ => .inl

theorem Recorded.post (hr : Recorded g l) (e : HostEvent) :
    Recorded (l.note g (.post e)) (l.take (.post e)) := by
  refine hr.offThread rfl rfl rfl (fun w hw => ⟨w, hw, rfl, rfl, fun _ _ => .inl⟩) fun u hu => ?_
  exact (mem_post hu).imp_right fun h => by simp [h]

theorem Recorded.command (hr : Recorded g l) (k : Nat) (c : Command) :
    Recorded (l.note g (.command k c)) (l.take (.command k c)) := by
  refine hr.offThread rfl ?_ rfl (fun w hw => ⟨w, hw, rfl, rfl, fun _ _ => .inl⟩) fun u hu => ?_
  · exact congrArg List.length (l.state.platform.sinks_apply k c).1
  · have hmem : u ∈ l.queue.tasks ++ if l.queue.gone then [] else
        (l.state.platform.apply k c).1.posted.toList.map (.command k) := by
      rw [← TaskQueue.postAll_tasks]
      exact hu
    rcases List.mem_append.1 hmem with hu | hu
    · exact .inl hu
    · split_ifs at hu
      · simp at hu
      · obtain ⟨c', hc', rfl⟩ := List.mem_map.1 hu
        refine .inr ⟨by simp, fun k' c'' heq => ?_⟩
        cases heq
        exact List.mem_map_of_mem hc'

theorem Recorded.replace (hr : Recorded g l) (hs : step.isTurn = false) {m : HostLoop} {i : Nat}
    {w w' : Worker} (hw : l.state.workers[i]? = some w)
    (hm : m.attempts = l.attempts ∧ m.state.login = l.state.login
      ∧ m.state.workers = l.state.workers)
    (hsink : w'.session.sink = w.session.sink) (hc : w'.credentials = w.credentials)
    (hended : ∀ failure o, w'.stage = .ended failure (some o) →
      (w'.session.sink, o) ∈ l.sends step)
    (hq : ∀ u ∈ m.queue.tasks, u ∈ l.queue.tasks
      ∨ (∀ k o, u = .outcome k o → (k, o) ∈ g.sent) ∧ ∀ k c, u ≠ .command k c) :
    Recorded (l.note g step) (m.setWorker i w') := by
  refine hr.offThread hs hm.1 hm.2.1 (fun v hv => ?_) fun u hu => ?_
  · have hv' : v ∈ l.state.workers.set i w' := hm.2.2 ▸ hv
    rcases List.mem_or_eq_of_mem_set hv' with hv | rfl
    · exact ⟨v, hv, rfl, rfl, fun _ _ => .inl⟩
    · exact ⟨w, List.mem_of_getElem? hw, hsink, hc, fun failure o ho => .inr (hended failure o ho)⟩
  · exact (hq u hu).imp_right fun h => ⟨h.1, fun k c hkc => (h.2 k c hkc).elim⟩

theorem Recorded.enter (hr : Recorded g l) (i : Nat) :
    Recorded (l.note g (.enter i)) (l.enter i) := by
  rcases l.enter_cases i with heq | ⟨w, hw, -, heq⟩ <;> rw [heq]
  · exact hr.unchanged rfl
  · exact hr.replace rfl hw ⟨rfl, rfl, rfl⟩ rfl rfl (by simp) fun u hu => .inl hu

theorem Recorded.answer (hr : Recorded g l) (i : Nat) (a : Answer) :
    Recorded (l.note g (.answer i a)) (l.answer i a) := by
  rcases l.answer_cases i a with heq | ⟨w, o, hw, hs, ho, heq⟩ <;> rw [heq]
  · exact hr.unchanged rfl
  · obtain ⟨hsink, hlen⟩ := w.session.sink_conclude l.state.platform a
    rw [← ho] at hsink hlen
    refine hr.replace rfl hw ⟨hlen, rfl, rfl⟩ hsink rfl (fun failure o' hstage => ?_)
      fun u hu => .inl hu
    simp only [WorkerStage.ended.injEq] at hstage
    simp [sends, hw, hs, ← ho, hstage.2, hsink]

theorem Recorded.deliver (hr : Recorded g l) (i : Nat) :
    Recorded (l.note g (.deliver i)) (l.deliver i) := by
  rcases l.deliver_cases i with heq | ⟨w, failure, o, hw, hs, heq⟩ <;> rw [heq]
  · exact hr.unchanged rfl
  · refine hr.replace rfl hw ⟨rfl, rfl, rfl⟩ rfl rfl (by simp) fun u hu => ?_
    refine (mem_post hu).imp_right ?_
    rintro rfl
    refine ⟨fun k o' h => ?_, by simp⟩
    cases h
    exact hr.ended w (List.mem_of_getElem? hw) failure o hs

theorem Recorded.complete (hr : Recorded g l) (i : Nat) :
    Recorded (l.note g (.complete i)) (l.complete i) := by
  rcases l.complete_cases i with heq | ⟨w, failure, hw, hs, heq⟩ <;> rw [heq]
  · exact hr.unchanged rfl
  · refine hr.offThread rfl rfl rfl (fun v hv => ?_) fun u hu => ?_
    · exact ⟨v, List.mem_of_mem_eraseIdx hv, rfl, rfl, fun _ _ => .inl⟩
    · refine (mem_post hu).imp_right ?_
      rintro rfl
      simp

theorem Recorded.take (hr : Recorded g l) (hb : l.Balanced lost) (step : HostStep) :
    Recorded (l.note g step) (l.take step) := by
  rcases hturn : l.turn? step with _ | ⟨l', t⟩
  · cases step with
    | handle e => simp [turn?] at hturn
    | runTask =>
      have hq : l.queue.tasks = [] := by simpa [turn?] using hturn
      have hnote : l.note g .runTask = g := by
        simp [note, submission?, event?, task?, sends, turn?, HostLoop.commands, hq]
      rw [hnote, show l.take .runTask = l from runTask_nil hq]
      exact hr
    | post e => exact hr.post e
    | command k c => exact hr.command k c
    | enter i => exact hr.enter i
    | answer i a => exact hr.answer i a
    | deliver i => exact hr.deliver i
    | complete i => exact hr.complete i
    | refuseWindow =>
      exact hr.offThread rfl rfl rfl (fun w hw => ⟨w, hw, rfl, rfl, fun _ _ => .inl⟩) fun _ => .inl
    | reveal =>
      exact hr.offThread rfl rfl rfl (fun w hw => ⟨w, hw, rfl, rfl, fun _ _ => .inl⟩) fun _ => .inl
  · rcases hb.turn_cases hturn with ⟨c, he, ht, hl, hp⟩ | ⟨hno, ht⟩
    · exact hr.launch hb hturn (submission?_eq_some.2 ⟨he, ht⟩) hl hp
    · refine hr.steady hb hturn (Option.eq_none_iff_forall_not_mem.2 fun c hc => ?_) ht
      obtain ⟨he, htakes⟩ := submission?_eq_some.1 hc
      simp [hno c he] at htakes

theorem Recorded.getLast (hr : Recorded g l) {k : Nat} (hk : k + 1 = l.attempts) :
    g.started.getLast?.map (·.1) = some k := by
  rw [← List.getLast?_map, hr.numbered, ← hk, List.range_succ, List.getLast?_concat]

theorem recorded_takeAll {s : HostSetup} {l₀ : HostLoop} (h₀ : s.start = .ok l₀)
    (steps : List HostStep) : Recorded (l₀.ledger steps {}) (l₀.takeAll steps) := by
  induction steps using List.reverseRecOn with
  | nil =>
    obtain ⟨layout, rfl⟩ := start_eq h₀
    refine ⟨rfl, ?_, ?_, ?_, ?_, ?_, ?_⟩ <;> simp [HostLoop.ledger]
  | append_singleton steps step ih =>
    obtain ⟨lost, hb, -⟩ := balanced_takeAll (balanced_start h₀) steps
    rw [ledger_concat, takeAll_concat]
    exact ih.take hb step

/-- No attempt's outcome is shown twice: the first one leaves no submission that waits, and later
ones are those of later attempts. -/
theorem nodup_shown {s : HostSetup} {l₀ : HostLoop} (h₀ : s.start = .ok l₀)
    (steps : List HostStep) : ((l₀.ledger steps {}).shown.map (·.1)).Nodup := by
  induction steps using List.reverseRecOn with
  | nil => exact List.nodup_nil
  | append_singleton steps step ih =>
    obtain ⟨lost, hb, -⟩ := balanced_takeAll (balanced_start h₀) steps
    have hr := recorded_takeAll h₀ steps
    rw [ledger_concat]
    generalize l₀.ledger steps {} = g at hr ih ⊢
    generalize l₀.takeAll steps = l at hb hr ⊢
    simp only [note]
    rcases hshown : (l.task? step).bind HostTask.outcome? with _ | ⟨k, o⟩
    · simpa using ih
    · obtain ⟨hp, hk, -⟩ := hb.shown_step hshown
      rw [Option.toList_some, List.map_append, List.map_singleton, ← List.concat_eq_append,
        List.nodup_concat]
      refine ⟨fun hmem => ?_, ih⟩
      obtain ⟨⟨k', o'⟩, hold, rfl⟩ := List.mem_map.1 hmem
      have := (hr.shown k' o' hold).2 hk
      simp [LoginFlow.isPending, this] at hp

/-- In every run the attempts have different numbers, each worker opens the session of its own
attempt, and no attempt's outcome is shown twice. An outcome that is about to be shown is one that
the newest attempt has sent, and the submission that waits is the one that this attempt was started
for. A command that is about to be carried out was posted through the sink of the newest
attempt. -/
theorem attributed_takeAll {s : HostSetup} {l₀ : HostLoop} (h₀ : s.start = .ok l₀)
    (steps : List HostStep) :
    ((l₀.ledger steps {}).started.map (·.1)).Nodup
      ∧ (∀ w ∈ (l₀.takeAll steps).state.workers,
        (w.session.sink, w.credentials) ∈ (l₀.ledger steps {}).started)
      ∧ ((l₀.ledger steps {}).shown.map (·.1)).Nodup
      ∧ (∀ k o, (l₀.takeAll steps).queue.tasks.head? = some (.outcome k o) →
        ∃ c, (l₀.ledger steps {}).started.getLast? = some (k, c)
          ∧ (l₀.takeAll steps).state.login.pending = some c
          ∧ (k, o) ∈ (l₀.ledger steps {}).sent)
      ∧ ∀ k c, (l₀.takeAll steps).queue.tasks.head? = some (.command k c) →
        (k, c) ∈ (l₀.ledger steps {}).posted
          ∧ (l₀.ledger steps {}).started.getLast?.map (·.1) = some k := by
  obtain ⟨lost, hb, -⟩ := balanced_takeAll (balanced_start h₀) steps
  have hr := recorded_takeAll h₀ steps
  have hnodup := nodup_shown h₀ steps
  generalize l₀.ledger steps {} = g at hr hnodup ⊢
  generalize l₀.takeAll steps = l at hb hr ⊢
  refine ⟨hr.numbered ▸ List.nodup_range, hr.workers, hnodup, fun k o hhead => ?_,
    fun k c hhead => ?_⟩
  · have hshown : (l.task? .runTask).bind HostTask.outcome? = some (k, o) := by
      rw [task?, hhead]
      rfl
    obtain ⟨hp, hk, -⟩ := hb.shown_step hshown
    obtain ⟨c, hc⟩ := Option.isSome_iff_exists.1 hp
    obtain ⟨⟨k', c'⟩, hlast, rfl⟩ := Option.map_eq_some_iff.1 (hr.pending c hc)
    have hk' := hr.getLast hk
    rw [hlast, Option.map_some, Option.some.injEq] at hk'
    obtain rfl : k' = k := hk'
    exact ⟨c', hlast, hc, hr.outcomes _ _ (List.mem_of_head? hhead)⟩
  · have hmem := List.mem_of_head? hhead
    exact ⟨hr.commands _ _ hmem, hr.getLast (hb.commands k c hmem).1⟩

/-- A run in which the engine goes on using the sink of a refused attempt during the next one. -/
def retried : List HostStep :=
  [.handle .create, .handle (.loginClicked {}), .enter 0, .answer 0 (.rejected "busy"), .deliver 0,
    .complete 0, .runTask, .runTask, .handle (.loginClicked { username := "again" }),
    .command 0 (.of .setTitle "old"), .command 1 (.of .setTitle "new"), .runTask, .enter 0,
    .answer 0 (.rejected "still busy"), .deliver 0]

/-- The outcome that such a run is about to show is that of the second submission. -/
theorem attributed_retried :
    ((of {}).takeAll retried).queue.tasks.head? = some (.outcome 1 (.recoverable "still busy"))
      ∧ ∃ c, ((of {}).ledger retried {}).started.getLast? = some (1, c)
        ∧ ((of {}).takeAll retried).state.login.pending = some c
        ∧ (1, .recoverable "still busy") ∈ ((of {}).ledger retried {}).sent := by
  have h₀ : HostSetup.start {} = .ok (of {}) := rfl
  have hhead : ((of {}).takeAll retried).queue.tasks.head?
      = some (.outcome 1 (.recoverable "still busy")) := by decide +kernel
  exact ⟨hhead, (attributed_takeAll h₀ retried).2.2.2.1 _ _ hhead⟩

end HostLoop

end EngineShell
