import EngineShell.Proofs.Errands
import EngineShell.Proofs.Runs
import EngineShell.Proofs.Turns

/-!
# The books balance

`HostLoop.Balanced` is the invariant of a host at work: the accounts of its errands hold, the
commands that wait come from the newest attempt and none waits behind an outcome, and an open slot
still has a completion to come. Every step keeps it (`Balanced.take`), and the number of lost
submissions grows only when a session that is up completes while no slot is open for it
(`HostLoop.abandons`). `balanced_takeAll` is the same for whole runs.
-/

namespace EngineShell

namespace HostTask

def isOutcome : HostTask → Bool
  | outcome .. => true
  | _ => false

def isCommand : HostTask → Bool
  | command .. => true
  | _ => false

end HostTask

namespace HostLoop

/-- The number of attempts so far. -/
def attempts (l : HostLoop) : Nat :=
  l.state.platform.sinks.length

/-- What holds of the queue and of the form. -/
structure Orderly (l : HostLoop) : Prop where
  running : l.queue.gone = false
  commands : ∀ k c, HostTask.command k c ∈ l.queue.tasks →
    k + 1 = l.attempts ∧ l.state.login.isPending = true
  ordered : l.queue.tasks.Pairwise fun t u => t.isOutcome = true → u.isCommand = false
  dispatching : ∀ k, l.state.dispatching = some k
    ↔ l.state.login.isPending = true ∧ k + 1 = l.attempts
  form : l.state.login.isFatal = false → l.state.login.isOpen = !l.state.login.isPending

/-- The invariant of a host at work, with the number of submissions that are lost. -/
structure Balanced (lost : Nat) (l : HostLoop) : Prop extends Orderly l where
  accounts : Accounts lost l.errands l.state.platform l.state.login.isPending
  opening : l.state.slot.phase = .opening →
    ∃ e ∈ l.errands, ∃ k, e.completion? = some k ∧ k + 1 = l.attempts

/-- Whether a step completes a session that is up while no slot is open for it. -/
def abandons (l : HostLoop) (step : HostStep) : Bool :=
  l.completes step && l.state.slot.phase != .opening

end HostLoop

namespace HostLoop

variable {lost : Nat} {l l' : HostLoop} {s : Session}

theorem Orderly.move (ho : l.Orderly) (hg : l'.queue.gone = l.queue.gone)
    (ht : l'.queue.tasks.Sublist l.queue.tasks) (hn : l'.attempts = l.attempts)
    (hl : l.state.login.Keeps l'.state.login)
    (hd : l'.state.dispatching = l.state.dispatching) : l'.Orderly := by
  have hp : l'.state.login.isPending = l.state.login.isPending := by
    rw [LoginFlow.isPending, hl.pending, LoginFlow.isPending]
  refine ⟨hg.trans ho.running, ?_, ho.ordered.sublist ht, ?_, ?_⟩
  · intro k c hc
    rw [hn, hp]
    exact ho.commands k c (ht.subset hc)
  · intro k
    rw [hd, hn, hp]
    exact ho.dispatching k
  · intro hf
    rw [(hl.form hf).2, hp]
    exact ho.form (hl.form hf).1

theorem Orderly.post (ho : l.Orderly) {t : HostTask} (ht : t.isCommand = false) :
    (l.post t).Orderly := by
  have hq : (l.post t).queue.tasks = l.queue.tasks ++ [t] := TaskQueue.tasks_post ho.running t
  refine ⟨(TaskQueue.post_gone _ _).trans ho.running, ?_, ?_, ho.dispatching, ho.form⟩
  · intro k c hc
    rw [hq, List.mem_append, List.mem_singleton] at hc
    rcases hc with hc | rfl
    · exact ho.commands k c hc
    · simp [HostTask.isCommand] at ht
  · rw [hq, List.pairwise_append]
    refine ⟨ho.ordered, List.pairwise_singleton _ _, fun u _ v hv _ => ?_⟩
    rwa [List.mem_singleton.1 hv]

theorem errands_quiet {h' : Host} (q : l.state.Quiet h') :
    errands { l with state := h' } = l.errands := by
  simp only [errands, q.slot, q.workers]

theorem Balanced.quiet (hb : l.Balanced lost) {h' : Host} (q : l.state.Quiet h') :
    Balanced lost { l with state := h' } := by
  have hn : attempts { l with state := h' } = l.attempts := congrArg List.length q.sinks
  refine ⟨hb.move rfl (List.Sublist.refl _) hn q.login.toKeeps q.dispatching, ?_, ?_⟩
  · rw [errands_quiet q]
    have := hb.accounts.congr q.sinks q.ids
    rwa [LoginFlow.isPending, ← q.login.pending] at this
  · rw [errands_quiet q, hn]
    exact fun hs => hb.opening (q.phase.symm.trans hs)

theorem Balanced.modify {t : Turn} {f : Host → Host} (hb : (l.land t).Balanced lost)
    (q : t.host.Quiet (f t.host)) : (l.land (t.modify f)).Balanced lost :=
  hb.quiet q

theorem Balanced.shown {t : Turn} {f : Presentation → Presentation} (hb : (l.land t).Balanced lost)
    (hk : t.host.login.Keeps (t.host.login.present f)) :
    (l.land (t.modify fun h => h.present f)).Balanced lost :=
  ⟨hb.move rfl (List.Sublist.refl _) rfl hk rfl, hb.accounts, hb.opening⟩

theorem Balanced.turn {t t' : Turn} (hb : (l.land t).Balanced lost) (q : t.Quiet t') :
    (l.land t').Balanced lost := by
  rw [land, q.posts]
  exact hb.quiet q.host

/-- The books while an errand is in hand, and no slot is open. -/
structure Owing (lost : Nat) (e : Errand) (l : HostLoop) : Prop extends Orderly l where
  accounts : Accounts lost (e ::ₘ l.errands) l.state.platform l.state.login.isPending
  phase : l.state.slot.phase ≠ .opening

theorem Owing.turn {t t' : Turn} {e : Errand} (ho : (l.land t).Owing lost e) (q : t.Quiet t') :
    (l.land t').Owing lost e := by
  rw [land, q.posts]
  have hn : attempts { (l.land t) with state := t'.host } = (l.land t).attempts :=
    congrArg List.length q.host.sinks
  refine ⟨ho.move rfl (List.Sublist.refl _) hn q.host.login.toKeeps q.host.dispatching, ?_, ?_⟩
  · have := ho.accounts.congr q.host.sinks q.host.ids
    rw [LoginFlow.isPending, show _ = _ from q.host.login.pending]
    exact (errands_quiet (l := l.land t) q.host) ▸ this
  · exact fun h => ho.phase (q.host.phase.symm.trans h)

/-- An outcome ends a session that is up, and goes to the queue. -/
theorem Owing.finish {t : Turn} (ho : (l.land t).Owing lost (.up s)) (o : Outcome) :
    (l.land (t.finish s o)).Balanced lost := by
  have hup := (ho.accounts.fits _ (Multiset.mem_cons_self _ _)).1
  obtain ⟨h1, h2⟩ := Session.finish_of_isUp t.host.platform hup o
  set l' := l.land (t.modify fun h => { h with platform := (s.teardown h.platform).2.2 }) with hl'
  have heq : l.land (t.finish s o) = l'.post (.outcome s.sink o) := by
    simp only [hl', land, Turn.finish, Turn.postOutcome, h1, h2, Turn.modify, Option.toList_some,
      List.map_cons, List.map_nil, TaskQueue.postAll, List.foldl_append]
    rfl
  have hord : l'.Orderly :=
    ho.move rfl (List.Sublist.refl _) (s.length_sinks_teardown _) (.refl _) rfl
  rw [heq]
  refine ⟨hord.post rfl, ?_, fun h => (ho.phase h).elim⟩
  rw [errands_post hord.running]
  exact ho.accounts.settle o

theorem Owing.abandon {t : Turn} (ho : (l.land t).Owing lost (.up s)) :
    (l.land (t.modify fun h => { h with platform := (s.teardown h.platform).2.2 })).Balanced
      (lost + 1) :=
  ⟨ho.move rfl (List.Sublist.refl _) (s.length_sinks_teardown _) (.refl _) rfl,
    ho.accounts.abandon, fun h => (ho.phase h).elim⟩

theorem Owing.discard {t : Turn} (ho : (l.land t).Owing lost (.ended s)) :
    (l.land (t.modify fun h => { h with platform := (s.teardown h.platform).2.2 })).Balanced
      lost := by
  have hs := (ho.accounts.fits _ (Multiset.mem_cons_self _ _)).1
  have heq : (t.modify fun h => { h with platform := (s.teardown h.platform).2.2 }) = t := by
    simp [Turn.modify, hs.teardown_eq]
  rw [heq]
  exact ⟨ho.toOrderly, ho.accounts.discard, fun h => (ho.phase h).elim⟩

theorem Owing.enterLive {t : Turn} (ho : (l.land t).Owing lost (.up s))
    (hs : t.host.slot.errands = 0) : (l.land (t.enterLive none s)).Balanced lost := by
  have he : (l.land (t.modify fun h => { h with slot := .live s })).errands
      = .up s ::ₘ (l.land t).errands := by
    simp only [errands, land, Turn.modify, hs, zero_add]
    simp only [Slot.errands, Multiset.singleton_add, Multiset.cons_add]
  have hb : (l.land (t.modify fun h => { h with slot := .live s })).Balanced lost := by
    refine ⟨ho.move rfl (List.Sublist.refl _) rfl (.refl _) rfl, he ▸ ho.accounts, ?_⟩
    simp [land, Slot.phase]
  obtain ⟨hsinks, hw⟩ := s.layoutPass_sinks t.host.platform
  have hlaid := hb.modify (f := fun h => { h with platform := (s.layoutPass h.platform).2 })
    (.platform hsinks (congrArg Windows.ids hw))
  exact hlaid.shown (LoginFlow.keeps_present _ rfl rfl)

theorem Balanced.terminate {t : Turn} (hb : (l.land t).Balanced lost) (o : Outcome) :
    (l.land (t.terminate o)).Balanced lost := by
  unfold Turn.terminate
  split
  · exact hb
  · rename_i held hs
    refine hb.modify ⟨?_, ?_, rfl, rfl, rfl, rfl, .refl _⟩
    · simp [hs, Slot.errands]
    · simp [hs, Slot.phase]
  · rename_i s hs
    have he : (l.land t).errands = .up s ::ₘ
        (l.land (t.modify fun h => { h with slot := .idle })).errands := by
      simp only [errands, land, Turn.modify, hs, Slot.errands, Multiset.zero_add,
        Multiset.singleton_add, Multiset.cons_add]
    have ho : (l.land (t.modify fun h => { h with slot := .idle })).Owing lost (.up s) :=
      ⟨hb.move rfl (List.Sublist.refl _) rfl (.refl _) rfl, he ▸ hb.accounts, by
        simp [land, Slot.phase]⟩
    exact (ho.finish o).shown (LoginFlow.keeps_present _ rfl rfl)

/-- While no submission waits, no session is live and no command is on the way. -/
theorem Balanced.rest (hb : l.Balanced lost) (hp : l.state.login.isPending = false) :
    (∀ s, l.state.slot ≠ .live s) ∧ ∀ t ∈ l.queue.tasks, t.isCommand = false := by
  obtain ⟨-, hnone, -⟩ := (hp ▸ hb.accounts).idle
  refine ⟨fun s hs => ?_, fun t ht => ?_⟩
  · have : Errand.up s ∈ l.errands := by
      simp only [errands, hs, Slot.errands, Multiset.mem_add, Multiset.mem_singleton, true_or]
    simpa using hnone _ this
  · cases t with
    | command k c =>
      have := (hb.commands k c ht).2
      simp [hp] at this
    | _ => rfl

theorem Balanced.login (hb : l.Balanced lost) (c : Credentials) :
    Balanced lost { l with state := l.state.onLoginClicked c } := by
  cases ht : l.state.takes
  · rw [Host.onLoginClicked_of_not_takes ht]
    exact hb
  obtain ⟨hs, hq⟩ := hb.rest (Host.free_of_takes ht)
  have hl := Host.launches_onLoginClicked ht hs c
  generalize l.state.onLoginClicked c = h' at hl
  have hn : attempts { l with state := h' } = l.attempts + 1 := by
    simp [attempts, hl.platform, Platform.addSink]
  have he : errands { l with state := h' } = .opening l.state.newSession ::ₘ l.errands := by
    have hw : Worker.errands { session := l.state.newSession, credentials := c }
      = {.opening l.state.newSession} := rfl
    rw [errands, errands, Slot.errands_eq_zero.2 hs, hl.slot, hl.workers, ← Multiset.coe_add,
      Multiset.add_bind, Multiset.coe_singleton, Multiset.singleton_bind, hw,
      ← Multiset.singleton_add]
    simp only [Slot.errands]
    abel
  have hp : h'.login.isPending = true := by simp [LoginFlow.isPending, hl.pending]
  refine ⟨⟨hb.running, ?_, hb.ordered, ?_, ?_⟩, ?_, fun _ => ?_⟩
  · intro k c hk
    simpa [HostTask.isCommand] using hq _ hk
  · intro k
    rw [hn, show _ = some l.attempts from hl.dispatching]
    simp [hp, eq_comm]
  · intro _
    rw [show _ = true from hp]
    exact hl.locked
  · rw [he, show _ = true from hp, show _ = l.state.platform.addSink {} from hl.platform]
    exact ((Host.free_of_takes ht) ▸ hb.accounts).launch l.state.isFresh_newSession rfl
  · exact ⟨_, he ▸ Multiset.mem_cons_self _ _, l.attempts, rfl, hn.symm⟩

theorem Balanced.handle (hb : l.Balanced lost) (e : HostEvent) :
    (l.handle e).2.Balanced lost := by
  have ht : (l.land (Turn.handle { host := l.state } e)).Balanced lost := by
    rcases Turn.handle_cases { host := l.state } e with q | ⟨t, q, heq⟩ | ⟨c, -, heq⟩
    · exact Balanced.turn (t := { host := l.state }) hb q
    · exact heq ▸ (Balanced.turn (t := { host := l.state }) hb q).terminate .success
    · exact heq ▸ hb.login c
  obtain ⟨seen, hseen⟩ := l.state.handle_eq e
  rw [handle_snd, hseen]
  exact ht.modify ⟨rfl, rfl, rfl, rfl, rfl, rfl, .refl _⟩

theorem Balanced.postEvent (hb : l.Balanced lost) (e : HostEvent) :
    (l.post (.event e)).Balanced lost := by
  have he : (l.post (.event e)).errands = l.errands := by
    rw [errands_post hb.running]
    exact zero_add _
  exact ⟨hb.post rfl, he ▸ hb.accounts, he ▸ hb.opening⟩

theorem Orderly.pop (ho : l.Orderly) : l.pop.Orderly :=
  ho.move rfl (List.tail_sublist _) rfl (.refl _) rfl

theorem errands_pop {t : HostTask} {rest : List HostTask} (h : l.queue.tasks = t :: rest) :
    l.errands = t.errands + l.pop.errands := by
  refine errands_queue (show l.state = l.pop.state from rfl) ?_
  simp [HostLoop.pop, h]

theorem Balanced.pop (hb : l.Balanced lost) {t : HostTask} {rest : List HostTask}
    (h : l.queue.tasks = t :: rest) (ht : t.errands = 0) : l.pop.Balanced lost := by
  have he : l.pop.errands = l.errands := by rw [errands_pop h, ht, zero_add]
  exact ⟨hb.toOrderly.pop, he ▸ hb.accounts, he ▸ hb.opening⟩

/-- The books once a completion has left the queue, and with it the slot may open up. -/
theorem Balanced.owing (hb : l.Balanced lost) {failure : Option Outcome} {c : Credentials}
    {rest : List HostTask} (h : l.queue.tasks = .opened s failure c :: rest) {slot : Slot}
    (hs : slot.errands = l.state.slot.errands) (hp : slot.phase ≠ .opening) :
    (l.pop.land { host := { l.state with slot } }).Owing lost (.ofOpened s failure) := by
  have he : l.errands
      = .ofOpened s failure ::ₘ (l.pop.land { host := { l.state with slot } }).errands := by
    rw [errands_pop h, HostTask.errands, Multiset.singleton_add]
    simp only [errands, land, HostLoop.pop, hs]
    rfl
  exact ⟨hb.toOrderly.pop.move rfl (List.Sublist.refl _) rfl (.refl _) rfl, he ▸ hb.accounts, hp⟩

theorem Balanced.onOpened (hb : l.Balanced lost) {failure : Option Outcome} {c : Credentials}
    {rest : List HostTask} (h : l.queue.tasks = .opened s failure c :: rest) :
    (l.pop.land (Turn.onOpened { host := l.state } s failure c)).Balanced
      (lost + (l.abandons .runTask).toNat) := by
  have habandons : l.abandons .runTask = (failure.isNone && l.state.slot.phase != .opening) := by
    rw [abandons, completes_runTask h]
    cases failure <;> rfl
  rw [habandons]
  -- the slot does not say whose it is: a completion uses up whichever attempt it holds
  by_cases hp : l.state.slot.phase = .opening
  · obtain ⟨held, hs⟩ := Slot.eq_opening hp
    have hidle : Slot.idle.errands = l.state.slot.errands := by simp [hs, Slot.errands]
    have q := Turn.quiet_accept { host := l.state } s c
    have ho := Owing.turn (t := { host := { l.state with slot := .idle } })
      (hb.owing h hidle (by simp [Slot.phase])) q
    have hslot : (Turn.accept { host := l.state } s c).host.slot.errands = 0 := q.host.slot
    rw [hp, bne_self_eq_false, Bool.and_false,
      Turn.onOpened_of_opening (t := { host := l.state }) hs]
    cases failure with
    | some f => exact ho.discard
    | none =>
      cases held with
      | some o => exact ho.finish o
      | none => exact ho.enterLive hslot
  · have ho := hb.owing h rfl hp
    rw [bne_iff_ne.2 hp, Bool.and_true,
      Turn.onOpened_of_not_opening (t := { host := l.state }) hp]
    cases failure with
    | some f => exact Owing.discard (t := { host := l.state }) ho
    | none => exact Owing.abandon (t := { host := l.state }) ho

theorem Balanced.onOutcome (hb : l.Balanced lost) {k : Nat} {o : Outcome} {rest : List HostTask}
    (h : l.queue.tasks = .outcome k o :: rest) :
    (l.pop.land (Turn.onOutcome { host := l.state } o)).Balanced lost := by
  have he : l.errands = .sent k o ::ₘ l.pop.errands := by
    rw [errands_pop h, HostTask.errands, Multiset.singleton_add]
  have ha := hb.accounts
  rw [he] at ha
  obtain ⟨hp, hk, ha⟩ := ha.present
  have hrest : ∀ t ∈ l.pop.queue.tasks, t.isCommand = false := by
    have := hb.ordered
    rw [h, List.pairwise_cons] at this
    simpa [HostLoop.pop, h, HostTask.isOutcome] using this.1
  set l' := l.pop.land (Turn.onOutcome { host := l.state } o) with hl'
  have hanswered : l'.state.login.isPending = false := by
    simp [hl', land, Turn.onOutcome, Turn.modify, LoginFlow.isPending, LoginFlow.pending_onOutcome]
  refine ⟨⟨hb.running, ?_, hb.toOrderly.pop.ordered, ?_, ?_⟩, ?_, ?_⟩
  · intro k' c hc
    simpa [HostTask.isCommand] using hrest _ hc
  · intro k'
    rw [hanswered]
    simp [hl', land, Turn.onOutcome, Turn.modify]
  · intro hf
    rw [hanswered]
    exact l.state.login.isOpen_onOutcome o hf
  · rw [hanswered]
    exact ha
  · intro hs
    obtain ⟨e, hmem, k', hc, hn⟩ := hb.opening hs
    rw [he, Multiset.mem_cons] at hmem
    rcases hmem with rfl | hmem
    · simp [Errand.completion?] at hc
    · exact ⟨e, hmem, k', hc, hn⟩

theorem Balanced.onCommand (hb : l.Balanced lost) (c : Command) :
    (l.land ((Turn.onCommand { host := l.state } c).toOption.getD { host := l.state })).Balanced
      lost := by
  obtain ⟨t, q, heq | ⟨o, heq⟩⟩ := Turn.onCommand_cases { host := l.state } c
  · exact heq ▸ Balanced.turn (t := { host := l.state }) hb q
  · exact heq ▸ (Balanced.turn (t := { host := l.state }) hb q).terminate o

theorem Balanced.runTask (hb : l.Balanced lost) :
    l.runTask.Balanced (lost + (l.abandons .runTask).toNat) := by
  rcases h : l.queue.tasks with _ | ⟨t, rest⟩
  · rw [runTask_nil h, abandons, completes, task?, h]
    exact hb
  have habandons : t.isCompletion = false → l.abandons .runTask = false := by
    intro ht
    rw [abandons, completes_runTask h, ht, Bool.false_and]
  rw [runTask_cons h]
  cases t with
  | event e =>
    rw [habandons rfl]
    exact (hb.pop h rfl).handle e
  | command k c =>
    rw [habandons rfl]
    exact (hb.pop h rfl).onCommand c
  | outcome k o =>
    rw [habandons rfl]
    exact hb.onOutcome h
  | opened s failure c => exact hb.onOpened h

/-- A sink that is open is the newest one, and its attempt has not sent an outcome. -/
theorem Balanced.of_isOpen (hb : l.Balanced lost) {k : Nat} (h : l.state.platform.IsOpen k) :
    k + 1 = l.attempts ∧ l.state.login.isPending = true
      ∧ ∀ t ∈ l.queue.tasks, t.isOutcome = false := by
  have hcarrier : ∃ e ∈ l.errands, e.carries = true ∧ (∀ k o, e ≠ .sent k o)
      ∧ k + 1 = l.attempts := by
    obtain ⟨s, hmem | hmem, rfl⟩ := hb.accounts.sinks k h
    · exact ⟨_, hmem, rfl, by simp, (hb.accounts.fits _ hmem).2.1⟩
    · exact ⟨_, hmem, rfl, by simp, (hb.accounts.fits _ hmem).2.1⟩
  obtain ⟨e, he, hc, hne, hk⟩ := hcarrier
  obtain ⟨hp, huniq⟩ := hb.accounts.eq_of_carries he hc
  refine ⟨hk, hp, fun t ht => ?_⟩
  cases t with
  | outcome k' o =>
    have hsent : Errand.sent k' o ∈ l.errands :=
      mem_errands_of_task ht (by simp [HostTask.errands])
    exact (hne k' o (huniq _ hsent rfl).symm).elim
  | _ => rfl

theorem Balanced.postCommand (hb : l.Balanced lost) {k : Nat} (h : l.state.platform.IsOpen k)
    (c : Command) : (l.post (.command k c)).Balanced lost := by
  obtain ⟨hk, hp, hq⟩ := hb.of_isOpen h
  have ht : (l.post (.command k c)).queue.tasks = l.queue.tasks ++ [.command k c] :=
    TaskQueue.tasks_post hb.running _
  have he : (l.post (.command k c)).errands = l.errands := by
    rw [errands_post hb.running]
    exact zero_add _
  refine ⟨⟨(TaskQueue.post_gone _ _).trans hb.running, ?_, ?_, hb.dispatching, hb.form⟩,
    he ▸ hb.accounts, he ▸ hb.opening⟩
  · intro k' c' hc
    rw [ht, List.mem_append, List.mem_singleton] at hc
    rcases hc with hc | hc
    · exact hb.commands k' c' hc
    · cases hc
      exact ⟨hk, hp⟩
  · rw [ht, List.pairwise_append]
    refine ⟨hb.ordered, List.pairwise_singleton _ _, fun u hu v _ h => ?_⟩
    simp [hq u hu] at h

theorem Balanced.command (hb : l.Balanced lost) (k : Nat) (c : Command) :
    (l.command k c).2.Balanced lost := by
  obtain ⟨hs, hw⟩ := l.state.platform.sinks_apply k c
  have hb' : (l.modifyPlatform fun p => (p.apply k c).2).Balanced lost :=
    hb.quiet (.platform hs (congrArg Windows.ids hw))
  rcases hposted : (l.state.platform.apply k c).1.posted with _ | c'
  · have heq : (l.command k c).2 = l.modifyPlatform fun p => (p.apply k c).2 := by
      simp only [HostLoop.command, hposted]
      rfl
    rw [heq]
    exact hb'
  · have heq : (l.command k c).2
        = (l.modifyPlatform fun p => (p.apply k c).2).post (.command k c') := by
      simp only [HostLoop.command, hposted]
      rfl
    obtain ⟨hopen, -⟩ := Platform.isOpen_of_posted hposted
    rw [heq]
    exact hb'.postCommand ((Platform.isOpen_congr hs k).2 hopen) c'

theorem Balanced.congr (hb : l.Balanced lost) (ho : l'.Orderly) (he : l'.errands = l.errands)
    (hs : l'.state.platform.sinks = l.state.platform.sinks)
    (hw : l'.state.platform.windows.ids = l.state.platform.windows.ids)
    (hl : l'.state.login = l.state.login) (hp : l'.state.slot = l.state.slot) :
    l'.Balanced lost := by
  refine ⟨ho, ?_, ?_⟩
  · rw [he, hl]
    exact hb.accounts.congr hs hw
  · rw [he, hp, attempts, hs]
    exact hb.opening

theorem Balanced.enter (hb : l.Balanced lost) (i : Nat) : (l.enter i).Balanced lost := by
  have he := l.errands_enter i
  rcases l.enter_cases i with heq | ⟨w, -, -, heq⟩ <;> rw [heq] at he ⊢
  · exact hb
  · exact hb.congr (hb.move rfl (List.Sublist.refl _) rfl (.refl _) rfl) he rfl rfl rfl rfl

theorem Balanced.deliver (hb : l.Balanced lost) (i : Nat) : (l.deliver i).Balanced lost := by
  have he := errands_deliver hb.running i
  rcases l.deliver_cases i with heq | ⟨w, failure, o, -, -, heq⟩ <;> rw [heq] at he ⊢
  · exact hb
  · have ho : (l.post (.outcome w.session.sink o)).Orderly := hb.post rfl
    exact hb.congr (ho.move rfl (List.Sublist.refl _) rfl (.refl _) rfl) he rfl rfl rfl rfl

theorem Balanced.complete (hb : l.Balanced lost) (i : Nat) : (l.complete i).Balanced lost := by
  have he := errands_complete hb.running i
  rcases l.complete_cases i with heq | ⟨w, failure, -, -, heq⟩ <;> rw [heq] at he ⊢
  · exact hb
  · have ho : (l.post (.opened w.session failure w.credentials)).Orderly := hb.post rfl
    exact hb.congr (ho.move rfl (List.Sublist.refl _) rfl (.refl _) rfl) he rfl rfl rfl rfl

/-- The engine's answer ends an attempt to open, whose completion is still to come. -/
theorem Balanced.answer (hb : l.Balanced lost) (i : Nat) (a : Answer) :
    (l.answer i a).Balanced lost := by
  rcases l.answer_cases i a with heq | ⟨w, o, hw, hstage, ho, heq⟩ <;> rw [heq]
  · exact hb
  have he : l.errands = .opening w.session ::ₘ (l.dropWorker i).errands := by
    rw [errands_dropWorker hw, Worker.errands, hstage, Multiset.singleton_add]
  have ha := hb.accounts
  rw [he] at ha
  have hend := Session.conclude_of_isFresh (ha.fits _ (Multiset.mem_cons_self _ _)).1
    l.state.platform a
  rw [← ho] at hend
  set l' := (l.modifyPlatform fun _ => o.platform).setWorker i
    { w with session := o.session, stage := .ended o.failure o.delivered } with hl'
  have hset : l'.errands
      = Worker.errands { w with session := o.session, stage := .ended o.failure o.delivered }
        + (l.dropWorker i).errands :=
    errands_setWorker (l := l.modifyPlatform fun _ => o.platform) hw _
  have hconclude : o.session.sink = w.session.sink
      ∧ o.platform.sinks.length = l.state.platform.sinks.length
      ∧ .ofOpened o.session o.failure ∈ l'.errands
      ∧ Accounts lost l'.errands o.platform l.state.login.isPending := by
    rw [hset]
    rcases hend with hup | ⟨f, hf⟩
    · refine ⟨hup.sink, by rw [hup.sinks], ?_, ?_⟩
      · simp [Worker.errands, hup.failure, hup.delivered]
      · simp only [Worker.errands, hup.failure, hup.delivered, Multiset.singleton_add]
        exact ha.goUp hup
    · refine ⟨hf.sink, hf.length_sinks, ?_, ?_⟩
      · simp [Worker.errands, hf.failure, hf.delivered]
      · simp only [Worker.errands, hf.failure, hf.delivered, Multiset.insert_eq_cons,
          Multiset.cons_add, Multiset.singleton_add, hf.sink]
        exact ha.giveUp hf
  obtain ⟨hsink, hn, hmem, ha'⟩ := hconclude
  refine ⟨hb.move rfl (List.Sublist.refl _) hn (.refl _) rfl, ha', fun hs => ?_⟩
  have hn' : l'.attempts = l.attempts := hn
  obtain ⟨e, he', k, hc, hk⟩ := hb.opening hs
  rw [he, Multiset.mem_cons] at he'
  rcases he' with rfl | he'
  · refine ⟨_, hmem, k, ?_, hn' ▸ hk⟩
    rw [← hc]
    cases o.failure <;> exact congrArg some hsink
  · exact ⟨e, hset ▸ Multiset.mem_add.2 (.inr he'), k, hc, hn' ▸ hk⟩

theorem Balanced.take (hb : l.Balanced lost) (step : HostStep) :
    (l.take step).Balanced (lost + (l.abandons step).toNat) := by
  cases step with
  | handle e => exact hb.handle e
  | post e => exact hb.postEvent e
  | runTask => exact hb.runTask
  | command k c => exact hb.command k c
  | enter i => exact hb.enter i
  | answer i a => exact hb.answer i a
  | deliver i => exact hb.deliver i
  | complete i => exact hb.complete i
  | refuseWindow => exact hb.quiet (.platform rfl rfl)
  | reveal => exact hb.quiet (.platform rfl rfl)

/-- A turn starts an attempt for the submission that it takes, or none. -/
theorem Balanced.turn_cases (hb : l.Balanced lost) {step : HostStep} {t : Turn}
    (h : l.turn? step = some (l', t)) :
    (∃ c, l.event? step = some (.loginClicked c) ∧ l.state.takes = true
        ∧ l.state.Launches t.host c ∧ t.posts = [])
      ∨ (∀ c, l.event? step = some (.loginClicked c) → l.state.takes = false)
        ∧ Turn.Steady l.state t := by
  cases turnOf h with
  | event e he =>
    rcases Turn.steady_handle (fun hp => (hb.rest hp).1) e with ⟨c, rfl, ht, hl, hp⟩ | ⟨hno, hs⟩
    · exact .inl ⟨c, he, ht, hl, hp⟩
    · exact .inr ⟨fun c hc => hno c (Option.some_inj.1 (he.symm.trans hc)), hs⟩
  | command k c rest hq =>
    exact .inr ⟨by simp [event?, task?, hq], Turn.steady_onCommand l.state c⟩
  | outcome k o rest hq =>
    exact .inr ⟨by simp [event?, task?, hq], Turn.steady_onOutcome l.state o⟩
  | opened s failure c rest hq =>
    exact .inr ⟨by simp [event?, task?, hq], Turn.steady_onOpened l.state s failure c⟩

theorem balanced_start {s : HostSetup} (h : s.start = .ok l) : l.Balanced 0 := by
  obtain ⟨layout, rfl⟩ := start_eq h
  set l : HostLoop := { state := _ } with hl
  have he : l.errands = 0 := rfl
  refine ⟨⟨rfl, by simp [hl], by simp [hl], ?_, fun _ => rfl⟩, ?_, by simp [hl, Slot.phase]⟩
  · simp [hl, LoginFlow.isPending]
  · refine he ▸ ⟨rfl, by simp, rfl, ?_⟩
    simp [Platform.isOpen_iff, hl]

/-- The books of a run. A submission is lost if a step has abandoned it. -/
theorem balanced_takeAll (hb : l.Balanced 0) (steps : List HostStep) :
    ∃ lost, (l.takeAll steps).Balanced lost
      ∧ (lost = 0 ↔ ¬ Meets (fun l step => l.abandons step = true) l steps) := by
  induction steps using List.reverseRecOn with
  | nil => exact ⟨0, hb, by simp⟩
  | append_singleton steps step ih =>
    obtain ⟨lost, hb', hlost⟩ := ih
    refine ⟨_, takeAll_concat l steps step ▸ hb'.take step, ?_⟩
    rw [meets_concat, not_or, ← hlost, Nat.add_eq_zero_iff]
    cases (l.takeAll steps).abandons step <;> simp

end HostLoop

end EngineShell
