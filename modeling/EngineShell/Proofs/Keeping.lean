import EngineShell.Proofs.Flights
import EngineShell.Proofs.Forms

/-!
# Credentials that are kept

The engine accepts an attempt before the host knows of it: what it has accepted travels with the
session, from the worker to the queue, and reaches the store when the attempt completes, whatever
becomes of the session. A step only moves it along (`Keeping.take`). So a host with nothing under
way has stored the credentials that the engine accepted last, and nothing else (`kept_takeAll`).
-/

namespace EngineShell

namespace Preferences

theorem namespaceOf_cons (n : String × Entries) (namespaces : List (String × Entries))
    (k : String) :
    namespaceOf (n :: namespaces) k = if k = n.1 then n.2 else namespaceOf namespaces k := by
  rw [namespaceOf, lookup_cons_eq_ite]
  split <;> rfl

theorem namespaceOf_replace (namespaces : List (String × Entries)) (name : String) (m : Entries)
    (k : String) : namespaceOf (replace name m namespaces) k
      = if k = name then m else namespaceOf namespaces k := by
  induction namespaces with
  | nil => exact namespaceOf_cons (name, m) [] k
  | cons n namespaces ih =>
    by_cases hn : n.1 = name
    · rw [replace, if_pos hn, namespaceOf_cons, namespaceOf_cons, hn]
      split_ifs <;> rfl
    · rw [replace, if_neg hn, namespaceOf_cons, namespaceOf_cons, ih]
      by_cases hk : k = n.1
      · rw [if_pos hk, if_neg (hk ▸ hn), if_pos hk]
      · rw [if_neg hk, if_neg hk]

end Preferences

/-- The text that credentials put under a key of a namespace, if they put one there. -/
def Credentials.entry? (c : Credentials) (name key : String) : Option String :=
  if name = "login" ∧ key = "u" then some c.username
  else if name = "login" ∧ key = "p" then some c.secret
  else if name = "login" ∧ key = "r" then some c.repository
  else none

theorem Credentials.entry?_eq_none (c : Credentials) {name key : String}
    (h : name ≠ "login" ∨ key ∉ ["u", "p", "r"]) : c.entry? name key = none := by
  simp only [List.mem_cons, List.not_mem_nil, or_false, not_or] at h
  unfold entry?
  rcases h with h | ⟨hu, hp, hr⟩
  · simp [h]
  · simp [hu, hp, hr]

namespace PreferenceStore

theorem get_putAll (m : Entries) (c : Credentials) (key : String) :
    (m.putAll (loginEntries c)).get? key
      = (c.entry? loginNamespace key).or (m.get? key) := by
  simp only [Entries.putAll, loginEntries, loginNamespace, List.foldl_cons, List.foldl_nil,
    Entries.get_put, Credentials.entry?, true_and]
  by_cases hu : key = "u"
  · simp [hu]
  by_cases hp : key = "p"
  · simp [hp]
  by_cases hr : key = "r" <;> simp [hu, hp, hr]

/-- What a store in memory holds of some namespaces and, over them, of credentials. -/
def Holds (namespaces : List (String × Entries)) (kept : Option Credentials)
    (s : PreferenceStore) : Prop :=
  ∃ namespaces', s = .memory namespaces' ∧ ∀ name key,
    (Preferences.namespaceOf namespaces' name).get? key
      = (kept.bind fun c => c.entry? name key).or
        ((Preferences.namespaceOf namespaces name).get? key)

variable {namespaces : List (String × Entries)} {kept : Option Credentials} {s : PreferenceStore}

theorem entry?_or (c c' : Credentials) (name key : String) (t : Option String) :
    (c'.entry? name key).or ((c.entry? name key).or t) = (c'.entry? name key).or t := by
  unfold Credentials.entry?
  split_ifs <;> rfl

theorem Holds.persist (hs : Holds namespaces kept s) (d : Disk) (c : Credentials) :
    ∃ s', s.persist d c = .ok (s', d) ∧ Holds namespaces (some c) s' := by
  obtain ⟨namespaces', rfl, hn⟩ := hs
  refine ⟨_, rfl, _, rfl, fun name key => ?_⟩
  have hor : (c.entry? name key).or ((Preferences.namespaceOf namespaces' name).get? key)
      = (c.entry? name key).or ((Preferences.namespaceOf namespaces name).get? key) := by
    rw [hn]
    rcases kept with _ | c'
    · rfl
    · exact entry?_or c' c name key _
  rw [Preferences.namespaceOf_replace, Option.bind_some, ← hor]
  split_ifs with h
  · rw [get_putAll, h]
  · simp [Credentials.entry?, show ¬ name = "login" from h]

theorem Holds.get (hs : Holds namespaces kept s) (d : Disk) (name key : String) :
    s.get d name key = .ok ((kept.bind fun c => c.entry? name key).or
      ((Preferences.namespaceOf namespaces name).get? key)) := by
  obtain ⟨namespaces', rfl, hn⟩ := hs
  exact congrArg Except.ok (hn name key)

end PreferenceStore

open PreferenceStore

theorem Host.holds_persist {namespaces : List (String × Entries)} {kept : Option Credentials}
    {h : Host} (hs : Holds namespaces kept h.store) (c : Credentials) :
    Holds namespaces (some c) (h.persist c).store := by
  obtain ⟨s', heq, hs'⟩ := hs.persist h.disk c
  rw [persist, heq]
  exact hs'

theorem filterMap_toList {α β : Type} (f : α → Option β) (a : Option α) :
    a.toList.filterMap f = (a.bind f).toList := by
  rcases a with _ | a
  · rfl
  · cases h : f a <;> simp [h]

/-- A session counts as accepted once the engine has answered without a refusal. -/
theorem Session.accepted_conclude {s : Session} (hs : s.accepted = false) (p : Platform)
    (a : Answer) : (s.conclude p a).session.accepted = a.refusal?.isNone := by
  rcases ha : a.refusal? with _ | message
  · simp only [conclude, ha, goLive]
    split
    · rfl
    · exact accepted_teardown _
  · simp only [conclude, ha]
    exact (accepted_teardown p).trans hs

/-- The credentials of a session that the engine has accepted. -/
def Worker.accepted? (w : Worker) : Option Credentials :=
  if w.session.accepted then some w.credentials else none

/-- The engine has not accepted what it has not answered. -/
def Worker.Awaits (w : Worker) : Prop :=
  w.stage = .starting ∨ w.stage = .opening → w.session.accepted = false

namespace HostTask

def accepted? : HostTask → Option Credentials
  | opened s _ c => if s.accepted then some c else none
  | _ => none

theorem filterMap_accepted {tasks : List HostTask} (h : tasks.countP isOpened = 0) :
    tasks.filterMap accepted? = [] := by
  rw [List.filterMap_eq_nil_iff]
  intro t ht
  have := List.countP_eq_zero.1 h t ht
  cases t with
  | opened s failure c => simp [isOpened] at this
  | _ => rfl

end HostTask

namespace HostLoop

/-- The credentials of the attempt that a step accepts for the engine. -/
def accepted? (l : HostLoop) : HostStep → Option Credentials
  | .answer i a =>
    match l.state.workers[i]? with
    | some w => if w.stage = .opening ∧ a.refusal? = none then some w.credentials else none
    | none => none
  | _ => none

/-- The credentials that the engine accepts in a run, in order. -/
def acceptances (l : HostLoop) (steps : List HostStep) : List Credentials :=
  l.collect accepted? steps

/-- The credentials that the engine has accepted and whose attempt is still to complete. -/
def unkept (l : HostLoop) : List Credentials :=
  l.queue.tasks.filterMap HostTask.accepted? ++ l.state.workers.filterMap Worker.accepted?

variable {l l' : HostLoop} {t : Turn} {step : HostStep}

/-- A worker is the only one, and no completion waits. -/
theorem Paired.only_worker (hp : l.Paired) {i : Nat} {w : Worker}
    (hw : l.state.workers[i]? = some w) : i = 0 ∧ l.state.workers = [w]
      ∧ l.queue.tasks.filterMap HostTask.accepted? = [] := by
  have hone := hp.openings
  have hle := (l.state.slot.phase == .opening).toNat_le
  obtain ⟨hi, hwi⟩ := List.getElem?_eq_some_iff.1 hw
  rw [HostLoop.openings] at hone
  have hlen : l.state.workers.length = 1 := by omega
  obtain ⟨w', hws⟩ := List.length_eq_one_iff.1 hlen
  obtain rfl : i = 0 := by omega
  refine ⟨rfl, ?_, HostTask.filterMap_accepted (by omega)⟩
  simpa [hws] using hw

/-- A completion that waits is the only one, and no worker works. -/
theorem Paired.only_task (hp : l.Paired) {s : Session} {failure : Option Outcome}
    {c : Credentials} {rest : List HostTask} (hq : l.queue.tasks = .opened s failure c :: rest) :
    l.state.workers = [] ∧ rest.filterMap HostTask.accepted? = [] := by
  have hone := hp.openings
  have hle := (l.state.slot.phase == .opening).toNat_le
  rw [HostLoop.openings, hq, List.countP_cons, if_pos (by rfl)] at hone
  exact ⟨List.length_eq_zero_iff.1 (by omega), HostTask.filterMap_accepted (by omega)⟩

theorem unkept_post (hg : l.queue.gone = false) {task : HostTask} (ht : task.accepted? = none) :
    (l.post task).unkept = l.unkept := by
  have hq : (l.post task).queue.tasks = l.queue.tasks ++ [task] := TaskQueue.tasks_post hg task
  rw [unkept, hq, List.filterMap_append, List.filterMap_cons_none ht, List.filterMap_nil,
    List.append_nil]
  rfl

/-- A step hands accepted credentials on: what was under way before it or is accepted in it is
stored, or under way after it. -/
structure Forwards (l : HostLoop) (step : HostStep) : Prop where
  unkept : (l.keeps? step).toList ++ (l.take step).unkept
    = l.unkept ++ (l.accepted? step).toList
  awaits : ∀ w ∈ (l.take step).state.workers, w.Awaits

theorem Forwards.still (ha : ∀ w ∈ l.state.workers, w.Awaits) (hk : l.keeps? step = none)
    (hn : l.accepted? step = none) (hu : (l.take step).unkept = l.unkept)
    (hw : (l.take step).state.workers = l.state.workers) : l.Forwards step := by
  refine ⟨?_, hw ▸ ha⟩
  rw [hk, hn, hu, Option.toList_none, List.nil_append, List.append_nil]

theorem Forwards.of_eq (ha : ∀ w ∈ l.state.workers, w.Awaits) (hk : l.keeps? step = none)
    (hn : l.accepted? step = none) (heq : l.take step = l) : l.Forwards step :=
  .still ha hk hn (by rw [heq]) (by rw [heq])

/-- The only worker gets on, and what it has with it. -/
theorem Paired.forwards_worker (hp : l.Paired) {i : Nat} {w w' : Worker}
    (hw : l.state.workers[i]? = some w) {l₁ : HostLoop} (heq : l.take step = l₁.setWorker i w')
    (hw₁ : l₁.state.workers = l.state.workers) (hu₁ : l₁.unkept = l.unkept)
    (hk : l.keeps? step = none)
    (hacc : w'.accepted?.toList = w.accepted?.toList ++ (l.accepted? step).toList)
    (ha : w'.Awaits) : l.Forwards step := by
  obtain ⟨rfl, hws, hq⟩ := hp.only_worker hw
  have hset : (l₁.setWorker 0 w').state.workers = [w'] := by
    rw [show (l₁.setWorker 0 w').state.workers = l₁.state.workers.set 0 w' from rfl, hw₁, hws]
    rfl
  have hq₁ : l₁.queue.tasks.filterMap HostTask.accepted? = [] := by
    rw [HostLoop.unkept, HostLoop.unkept, hw₁, hq, List.nil_append] at hu₁
    exact List.append_left_eq_self.1 hu₁
  have toList : ∀ w : Worker, [w].filterMap Worker.accepted? = w.accepted?.toList :=
    fun w => filterMap_toList Worker.accepted? (some w)
  refine ⟨?_, fun v hv => ?_⟩
  · rw [hk, heq, HostLoop.unkept, HostLoop.unkept, hset, hws, hq,
      show (l₁.setWorker 0 w').queue = l₁.queue from rfl, hq₁, toList, toList, hacc]
    rfl
  · rw [heq, hset, List.mem_singleton] at hv
    exact hv ▸ ha

theorem Paired.forwards_answer (hp : l.Paired) (ha : ∀ w ∈ l.state.workers, w.Awaits) (i : Nat)
    (a : Answer) : l.Forwards (.answer i a) := by
  rcases hw : l.state.workers[i]? with _ | w
  · exact .of_eq ha rfl (by simp [accepted?, hw]) (by simp [HostLoop.take, HostLoop.answer, hw])
  by_cases hs : w.stage = .opening
  swap
  · exact .of_eq ha rfl (by simp [accepted?, hw, hs])
      (by simp [HostLoop.take, HostLoop.answer, hw, hs])
  have hwait := ha w (List.mem_of_getElem? hw) (.inr hs)
  set o := w.session.conclude l.state.platform a with ho
  have heq : l.take (.answer i a) = (l.modifyPlatform fun _ => o.platform).setWorker i
      { w with session := o.session, stage := .ended o.failure o.delivered } := by
    simp only [HostLoop.take, HostLoop.answer, hw, if_pos hs, ho]
  refine hp.forwards_worker hw heq rfl rfl rfl ?_ (by simp [Worker.Awaits])
  simp only [Worker.accepted?, accepted?, hw, hs, hwait, ho, Session.accepted_conclude hwait]
  cases a.refusal? <;> rfl

theorem Paired.forwards_complete (hp : l.Paired) (ha : ∀ w ∈ l.state.workers, w.Awaits) (i : Nat) :
    l.Forwards (.complete i) := by
  rcases l.complete_cases i with heq | ⟨w, failure, hw, hs, heq⟩
  · exact .of_eq ha rfl rfl heq
  replace heq : l.take (.complete i)
      = (l.dropWorker i).post (.opened w.session failure w.credentials) := heq
  obtain ⟨rfl, hws, hq⟩ := hp.only_worker hw
  have hnone : (l.take (.complete 0)).state.workers = [] := by
    rw [heq]
    simp [HostLoop.post, Loop.post, dropWorker, HostLoop.modify, hws]
  have htasks : (l.take (.complete 0)).queue.tasks
      = l.queue.tasks ++ [.opened w.session failure w.credentials] := by
    rw [heq]
    exact TaskQueue.tasks_post (q := l.queue) hp.running _
  refine ⟨?_, by simp [hnone]⟩
  have hsame : HostTask.accepted? (.opened w.session failure w.credentials) = w.accepted? := rfl
  rw [HostLoop.unkept, HostLoop.unkept, hnone, htasks, List.filterMap_append, hq, hws]
  cases hacc : w.accepted? <;> simp [keeps?, accepted?, task?, hacc, hsame]

/-- Off the presentation thread accepted credentials move on, and new ones come from an answer. -/
theorem Paired.forwards_offThread (hp : l.Paired) (ha : ∀ w ∈ l.state.workers, w.Awaits)
    (h : l.turn? step = none) : l.Forwards step := by
  cases step with
  | handle e => simp [turn?] at h
  | runTask =>
    have hq : l.queue.tasks = [] := by simpa [turn?] using h
    exact .of_eq ha (by simp [keeps?, task?, hq]) rfl (runTask_nil hq)
  | post e => exact .still ha rfl rfl (unkept_post hp.running rfl) rfl
  | command k c =>
    refine .still ha rfl rfl ?_ rfl
    have hnone : ((l.state.platform.apply k c).1.posted.toList.map (HostTask.command k)).filterMap
        HostTask.accepted? = [] := by
      rw [List.filterMap_eq_nil_iff]
      simp [HostTask.accepted?]
    rw [unkept, HostLoop.take, tasks_command hp.running, List.filterMap_append, hnone,
      List.append_nil]
    rfl
  | enter i =>
    rcases l.enter_cases i with heq | ⟨w, hw, hs, heq⟩
    · exact .of_eq ha rfl rfl heq
    · have hwait := ha w (List.mem_of_getElem? hw) (.inl hs)
      exact hp.forwards_worker hw heq rfl rfl rfl (List.append_nil _).symm fun _ => hwait
  | answer i a => exact hp.forwards_answer ha i a
  | deliver i =>
    rcases l.deliver_cases i with heq | ⟨w, failure, o, hw, hs, heq⟩
    · exact .of_eq ha rfl rfl heq
    · exact hp.forwards_worker hw heq rfl (unkept_post hp.running rfl) rfl
        (List.append_nil _).symm (by simp [Worker.Awaits])
  | complete i => exact hp.forwards_complete ha i
  | refuseWindow => exact .still ha rfl rfl rfl rfl
  | reveal => exact .still ha rfl rfl rfl rfl

/-- What completes finds the slot open. -/
theorem Paired.keeps?_eq (hp : l.Paired) (step : HostStep) :
    l.keeps? step = (l.task? step).bind HostTask.accepted? := by
  rcases htask : l.task? step with _ | task
  · simp [keeps?, htask]
  cases task with
  | opened s failure c =>
    have hmem : .opened s failure c ∈ l.queue.tasks := by
      cases step with
      | runTask => exact List.mem_of_head? htask
      | _ => simp [task?] at htask
    simp [keeps?, htask, hp.opening_of_mem hmem, HostTask.accepted?]
  | _ => simp [keeps?, htask, HostTask.accepted?]

theorem Paired.forwards_turn (hp : l.Paired) (ha : ∀ w ∈ l.state.workers, w.Awaits)
    (h : l.turn? step = some (l', t)) : l.Forwards step := by
  have hnone : l.accepted? step = none := by
    rcases turn?_eq_some.1 h with ⟨e, rfl, -, -⟩ | ⟨task, rest, rfl, -, -, -⟩ <;> rfl
  -- whatever a turn posts or starts, the engine has not accepted it yet
  have hturn : t.posts.filterMap HostTask.accepted? = []
      ∧ ∃ started, t.host.workers = l.state.workers ++ started
        ∧ ∀ w ∈ started, w.session.accepted = false := by
    rcases hp.toBalanced.turn_cases h with ⟨c, -, -, hl, hposts⟩ | ⟨-, ht⟩
    · refine ⟨by rw [hposts]; rfl, _, hl.workers, fun w hw => ?_⟩
      obtain rfl := List.mem_singleton.1 hw
      rfl
    · refine ⟨?_, [], by rw [ht.workers, List.append_nil], by simp⟩
      rw [List.filterMap_eq_nil_iff]
      intro p hmem
      obtain ⟨k, o, rfl⟩ := ht.posts p hmem
      rfl
  obtain ⟨hposts, started, hworkers, hstarted⟩ := hturn
  have hnew : started.filterMap Worker.accepted? = [] := by
    rw [List.filterMap_eq_nil_iff]
    intro w hw
    simp [Worker.accepted?, hstarted w hw]
  have hqueue : (if l'.queue.gone then [] else t.posts).filterMap HostTask.accepted? = [] := by
    split_ifs
    · rfl
    · exact hposts
  refine ⟨?_, fun w hw => ?_⟩
  · rw [hnone, hp.keeps?_eq, take_turn h, HostLoop.unkept, HostLoop.unkept, tasks_turn h,
      List.filterMap_append, filterMap_toList, land, TaskQueue.postAll_tasks,
      List.filterMap_append, hqueue, hworkers, List.filterMap_append, hnew]
    simp
  · rw [take_turn h] at hw
    rcases List.mem_append.1 (hworkers ▸ hw) with hw | hw
    · exact ha w hw
    · exact fun _ => hstarted w hw

theorem Paired.forwards (hp : l.Paired) (ha : ∀ w ∈ l.state.workers, w.Awaits)
    (step : HostStep) : l.Forwards step := by
  rcases h : l.turn? step with _ | ⟨l', t⟩
  · exact hp.forwards_offThread ha h
  · exact hp.forwards_turn ha h

theorem store_take (l : HostLoop) (step : HostStep) : (l.take step).state.store
    = (l.keeps? step).elim l.state.store fun c => (l.state.persist c).store := by
  rcases h : l.turn? step with _ | ⟨l', t⟩
  · obtain ⟨platform, workers, heq⟩ := l.state_take h
    rw [keeps?, task?_eq_none h, heq]
    rfl
  · rw [take_turn h]
    exact (driven_turn h).2

/-- What the engine has accepted is stored, the last one on top, or still under way. -/
structure Keeping (namespaces : List (String × Entries)) (accepted : List Credentials)
    (l : HostLoop) : Prop extends Paired l where
  awaits : ∀ w ∈ l.state.workers, w.Awaits
  kept : ∃ kept, accepted = kept ++ l.unkept ∧ Holds namespaces kept.getLast? l.state.store

variable {namespaces : List (String × Entries)} {accepted : List Credentials}

theorem Keeping.take (hk : Keeping namespaces accepted l) (hs : l.severs step = false) :
    Keeping namespaces (accepted ++ (l.accepted? step).toList) (l.take step) := by
  obtain ⟨hmoves, hawaits⟩ := hk.forwards hk.awaits step
  obtain ⟨kept, haccepted, hstore⟩ := hk.kept
  refine ⟨hk.toPaired.take hs, hawaits, kept ++ (l.keeps? step).toList, ?_, ?_⟩
  · rw [haccepted, List.append_assoc, List.append_assoc, hmoves]
  · rw [store_take]
    rcases l.keeps? step with _ | c
    · simpa using hstore
    · simpa using Host.holds_persist hstore c

theorem keeping_takeAll {s : HostSetup} {l₀ : HostLoop} (h₀ : s.start = .ok l₀)
    (hm : s.store = .memory namespaces) {steps : List HostStep}
    (hs : ¬ Meets (fun l step => l.severs step = true) l₀ steps) :
    Keeping namespaces (l₀.acceptances steps) (l₀.takeAll steps) := by
  induction steps using List.reverseRecOn with
  | nil =>
    refine ⟨paired_takeAll h₀ hs, ?_, [], ?_, ?_⟩
    all_goals
      obtain ⟨layout, rfl⟩ := start_eq h₀
    · simp
    · rfl
    · exact ⟨namespaces, hm, fun name key => rfl⟩
  | append_singleton steps step ih =>
    rw [meets_concat, not_or] at hs
    rw [takeAll_concat, acceptances, collect_concat]
    exact (ih hs.1).take (by simpa using hs.2)

/-- A store in memory keeps the credentials that the engine accepted last. -/
structure Kept (namespaces : List (String × Entries)) (accepted : List Credentials)
    (l : HostLoop) : Prop where
  /-- With nothing under way they are stored, over what the store held at first. -/
  stored : l.queue.tasks = [] → l.state.workers = [] → ∀ name key,
    l.state.store.get l.state.disk name key
      = .ok ((accepted.getLast?.bind fun c => c.entry? name key).or
        ((Preferences.namespaceOf namespaces name).get? key))
  /-- Nothing else changes at any time. -/
  others : ∀ name key, name ≠ "login" ∨ key ∉ ["u", "p", "r"] →
    l.state.store.get l.state.disk name key
      = .ok ((Preferences.namespaceOf namespaces name).get? key)
  /-- Only the completion of the attempt that was accepted last writes. -/
  written : ∀ step, (l.take step).state.store ≠ l.state.store →
    ∃ session failure c, l.task? step = some (.opened session failure c)
      ∧ session.accepted = true ∧ accepted.getLast? = some c

/-- What is written is what the engine accepted last. -/
theorem Keeping.getLast_of_keeps (hk : Keeping namespaces accepted l) {c : Credentials}
    (h : l.keeps? step = some c) : ∃ session failure,
      l.task? step = some (.opened session failure c) ∧ session.accepted = true
        ∧ accepted.getLast? = some c := by
  obtain ⟨kept, haccepted, -⟩ := hk.kept
  rw [hk.keeps?_eq] at h
  obtain ⟨task, htask, hacc⟩ := Option.bind_eq_some_iff.1 h
  rcases task with _ | _ | _ | ⟨s, failure, c'⟩ <;> simp [HostTask.accepted?] at hacc
  obtain ⟨hs, rfl⟩ := hacc
  refine ⟨s, failure, htask, hs, ?_⟩
  cases step with
  | runTask =>
    obtain ⟨rest, hq⟩ : ∃ rest, l.queue.tasks = .opened s failure c' :: rest :=
      ⟨_, List.eq_cons_of_mem_head? htask⟩
    obtain ⟨hw, hrest⟩ := hk.only_task hq
    have hunkept : l.unkept = [c'] := by
      simp [unkept, hq, hw, hrest, HostTask.accepted?, hs]
    rw [haccepted, hunkept, List.getLast?_concat]
  | _ => simp [task?] at htask

theorem Keeping.toKept (hk : Keeping namespaces accepted l) : Kept namespaces accepted l := by
  obtain ⟨kept, haccepted, hstore⟩ := hk.kept
  refine ⟨fun hq hw name key => ?_, fun name key h => ?_, fun step h => ?_⟩
  · have hnone : l.unkept = [] := by simp [unkept, hq, hw]
    rw [haccepted, hnone, List.append_nil]
    exact hstore.get _ name key
  · have hnone : (kept.getLast?.bind fun c => c.entry? name key) = none := by
      rcases kept.getLast? with _ | c
      · rfl
      · exact Credentials.entry?_eq_none c h
    rw [hstore.get, hnone, Option.none_or]
  · rcases hkeeps : l.keeps? step with _ | c
    · rw [store_take, hkeeps] at h
      exact (h rfl).elim
    · obtain ⟨session, failure, htask, hacc, hlast⟩ := hk.getLast_of_keeps hkeeps
      exact ⟨session, failure, c, htask, hacc, hlast⟩

/-- In every run over a store in memory that processes the outcome and the completion of each
failed attempt back to back, the store holds the credentials that the engine accepted last
whenever nothing waits and no worker works, and only a completion of an accepted attempt
writes it. -/
theorem kept_takeAll {s : HostSetup} {l₀ : HostLoop} (h₀ : s.start = .ok l₀)
    (hm : s.store = .memory namespaces) {steps : List HostStep}
    (hs : ¬ Meets (fun l step => l.severs step = true) l₀ steps) :
    Kept namespaces (l₀.acceptances steps) (l₀.takeAll steps) :=
  (keeping_takeAll h₀ hm hs).toKept

/-- A host with something in its store. -/
def stocked : HostSetup :=
  { store := .memory [("login", [("u", "old"), ("note", "kept")])] }

/-- A run with three attempts: the first is accepted by an empty refusal and ends by a termination
that was held, the second is refused, the third is accepted and finds no window. The form is edited
and saved after that. -/
def thrice : List HostStep :=
  [.handle .create, .handle (.loginClicked { username := "ann" }), .enter 0, .handle .backPressed,
    .answer 0 (.rejected ""), .complete 0, .runTask, .runTask,
    .handle (.loginClicked { username := "ben" }), .enter 0, .answer 0 (.rejected "busy"),
    .deliver 0, .complete 0, .runTask, .runTask,
    .handle (.loginClicked { username := "carl" }), .enter 0, .refuseWindow, .answer 0 .accepted,
    .deliver 0, .complete 0, .runTask, .runTask, .handle (.fieldsEdited {}), .handle .saveState]

/-- After such a run the store holds what the third attempt was started with, beside what was
there under another key. -/
theorem kept_thrice : ((of stocked).acceptances thrice).map (·.username) = ["ann", "carl"]
    ∧ ((of stocked).takeAll thrice).state.store.get {} "login" "u" = .ok (some "carl")
      ∧ ((of stocked).takeAll thrice).state.store.get {} "login" "note" = .ok (some "kept") := by
  have h₀ : stocked.start = .ok (of stocked) := rfl
  have hs : ¬ Meets (fun l step => l.severs step = true) (of stocked) thrice := by decide +kernel
  have hq : ((of stocked).takeAll thrice).queue.tasks = [] := by decide +kernel
  have hw : ((of stocked).takeAll thrice).state.workers = [] := by decide +kernel
  have haccepted : (of stocked).acceptances thrice
      = [{ username := "ann" }, { username := "carl" }] := by decide +kernel
  have hdisk : ((of stocked).takeAll thrice).state.disk = {} := by decide +kernel
  have hstored := (kept_takeAll h₀ rfl hs).stored hq hw
  rw [haccepted, hdisk] at hstored
  exact ⟨by rw [haccepted]; rfl, hstored "login" "u", hstored "login" "note"⟩

end HostLoop

end EngineShell
