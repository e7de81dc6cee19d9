import EngineShell.Proofs.FatalScreen
import EngineShell.Proofs.Pairs
import EngineShell.Proofs.Publications

/-!
# The presentation mirrors the slot

The phase that is shown, the overlay's attachment and the slot are written in different turns, and
differ for as long as an outcome is on its way. `Host.Mirrors` says how far: while a submission
waits the phase is that of a slot that is taken, and without one it is idle or closed. So in a run
that processes the results of failed attempts back to back, and whose taps do not fire, the three
agree whenever nothing waits in the queue, and the phases that were published are rounds of
opening, maybe live, and closed (`mirrored_takeAll`).
-/

namespace EngineShell

namespace Phase

/-- The phases of one session, which went live or not. -/
def round (wentLive : Bool) : List Phase :=
  if wentLive then [opening, live, closed] else [opening, closed]

/-- The phases of a session that has not ended. -/
def begun : Phase → List Phase
  | opening => [opening]
  | live => [opening, live]
  | _ => []

/-- The phases that may follow a phase. -/
def next : Phase → List Phase
  | idle | closed => [opening]
  | opening => [live, closed]
  | live => [closed]

end Phase

namespace Board

/-- The phases that were published are those of sessions one after the other. -/
def Rounds (b : Board) : Prop :=
  ∃ rounds : List Bool, b.phases = rounds.flatMap Phase.round ++ b.shown.phase.begun

theorem Rounds.plain {b b' : Board} (h : b.Rounds) (hb : b.Plain b')
    (hn : b'.shown.phase = b.shown.phase ∨ b'.shown.phase ∈ b.shown.phase.next) : b'.Rounds := by
  obtain ⟨rounds, hr⟩ := h
  rcases hn with heq | hn
  · refine ⟨rounds, ?_⟩
    rw [hb.phases, hr, heq]
    simp
  · rw [Rounds, hb.phases, hr]
    cases hp : b.shown.phase <;> rw [hp] at hn <;>
      simp only [Phase.next, List.mem_cons, List.not_mem_nil, or_false] at hn
    · exact ⟨rounds, by simp [hn, Phase.begun]⟩
    · rcases hn with hn | hn
      · exact ⟨rounds, by simp [hn, Phase.begun]⟩
      · exact ⟨rounds ++ [false], by simp [hn, Phase.begun, Phase.round]⟩
    · exact ⟨rounds ++ [true], by simp [hn, Phase.begun, Phase.round]⟩
    · exact ⟨rounds, by simp [hn, Phase.begun]⟩

/-- What was published is the beginning of whole rounds. -/
theorem Rounds.prefix_flatMap {b : Board} (h : b.Rounds) :
    ∃ rounds : List Bool, b.phases <+: rounds.flatMap Phase.round := by
  obtain ⟨rounds, hr⟩ := h
  have hbegun : b.shown.phase.begun <+: Phase.round (b.shown.phase == .live) := by
    cases b.shown.phase <;> decide
  refine ⟨rounds ++ [b.shown.phase == .live], ?_⟩
  rw [hr, List.flatMap_append, List.flatMap_singleton]
  exact (List.prefix_append_right_inj _).2 hbegun

theorem Alternates.prefix_flatten {b : Board} (h : b.Alternates) :
    ∃ n, b.attachments <+: (List.replicate n [true, false]).flatten := by
  obtain ⟨n, hn⟩ := h
  refine ⟨n + 1, ?_⟩
  rw [hn, List.replicate_succ', List.flatten_append, List.flatten_singleton]
  refine (List.prefix_append_right_inj _).2 ?_
  cases b.shown.overlayAttached <;> decide

end Board

namespace LoginFlow

theorem phase_onOutcome {l : LoginFlow} (h : l.isFatal = false) (o : Outcome) :
    (l.onOutcome o).board.shown.phase = .closed := by
  rcases (l.shown_onOutcome o).2 with ⟨hf, -⟩ | ⟨-, hp⟩
  · rw [onOutcome_of_not_fatal h] at hf ⊢
    cases o with
    | fatal m => simp [isFatal_showFatal, h] at hf
    | _ => rfl
  · exact hp

end LoginFlow

namespace Host

/-- Whether an event is the tap of a burst that brings up the fatal screen. -/
def fires (h : Host) : HostEvent → Bool
  | .iconTapped time => h.login.taps.fires time
  | _ => false

/-- Whether an event brings the host up from a fatal record. -/
def restores (h : Host) : HostEvent → Bool
  | .create => !h.created && match h.restored with
    | some (.fatal _) => true
    | _ => false
  | _ => false

/-- What a host shows of its session while a submission waits, and while none does. -/
structure Mirrors (h : Host) : Prop where
  slot : h.login.isPending = true → h.slot.phase ≠ .idle → h.shown.phase = h.slot.phase
  waiting : h.login.isPending = true → h.shown.phase = .opening ∨ h.shown.phase = .live
  free : h.login.isPending = false → h.shown.phase = .idle ∨ h.shown.phase = .closed
  created : h.login.isPending = true → h.created = true
  calm : h.login.isFatal = true → h.login.isPending = false

/-- A change after which a host still mirrors its session. The phase stays or goes on, unless the
host starts from a fatal record. -/
structure Follows (restores : Bool) (h h' : Host) : Prop where
  mirrors : h'.Mirrors
  phase : restores = false → h'.shown.phase = h.shown.phase ∨ h'.shown.phase ∈ h.shown.phase.next

namespace Mirrors

variable {h h' : Host} {restores : Bool}

theorem move (hm : h.Mirrors) (hl : h'.login.pending = h.login.pending)
    (hf : h'.login.isFatal = h.login.isFatal) (hp : h'.shown.phase = h.shown.phase)
    (hs : h'.slot.phase = .idle ∨ h'.slot.phase = h.slot.phase)
    (hc : h.created = true → h'.created = true) : Follows restores h h' := by
  have hpend : h'.login.isPending = h.login.isPending := by
    rw [LoginFlow.isPending, hl, LoginFlow.isPending]
  refine ⟨⟨?_, ?_, ?_, ?_, ?_⟩, fun _ => .inl hp⟩
  · intro hw hne
    rcases hs with hs | hs
    · exact (hne hs).elim
    · rw [hp, hs]
      exact hm.slot (hpend ▸ hw) (hs ▸ hne)
  · rw [hpend, hp]
    exact hm.waiting
  · rw [hpend, hp]
    exact hm.free
  · exact fun hw => hc (hm.created (hpend ▸ hw))
  · rw [hpend, hf]
    exact hm.calm

theorem quiet (hm : h.Mirrors) (q : h.Quiet h') (hc : h.created = true → h'.created = true)
    (hr : h.login.isFatal = false → h'.login.isFatal = true →
      restores = true ∧ h.created = false) : Follows restores h h' := by
  rcases q.login.screen with ⟨hf, hp⟩ | ⟨hf, hf', hp⟩
  · exact hm.move q.login.pending hf hp (.inr q.phase) hc
  · -- the fatal screen comes up over a host that has not been brought up, so nothing waits
    obtain ⟨hrestores, hnew⟩ := hr hf hf'
    have hpend : h'.login.isPending = false := by
      rw [LoginFlow.isPending, q.login.pending, ← LoginFlow.isPending]
      by_contra hw
      simp [hm.created (Bool.not_eq_false _ ▸ hw)] at hnew
    refine ⟨⟨?_, ?_, fun _ => .inr hp, ?_, fun _ => hpend⟩, by simp [hrestores]⟩ <;> simp [hpend]

theorem terminate {t : Turn} (hm : t.host.Mirrors) (o : Outcome) :
    Follows restores t.host (t.terminate o).host := by
  unfold Turn.terminate
  split
  · exact hm.move rfl rfl rfl (.inr rfl) id
  · rename_i held hs
    exact hm.move rfl rfl rfl (.inr (by rw [hs]; rfl)) id
  · exact hm.move rfl rfl rfl (.inl rfl) id

theorem launch {c : Credentials} (hm : h.Mirrors) (ht : h.takes = true) (hl : h.Launches h' c)
    (hc : h'.created = true) : Follows restores h h' where
  mirrors := by
    have hpend : h'.login.isPending = true := by rw [LoginFlow.isPending, hl.pending]; rfl
    refine ⟨fun _ _ => ?_, fun _ => .inl hl.phase, ?_, fun _ => hc, ?_⟩
    · rw [hl.phase, hl.slot]
      rfl
    · simp [hpend]
    · simp [hl.isFatal]
  phase := by
    intro _
    right
    rcases hm.free (free_of_takes ht) with hp | hp <;> simp [hp, Phase.next, hl.phase]

theorem onOutcome (hm : h.Mirrors) (hw : h.login.isPending = true) (o : Outcome) :
    Follows restores h (Turn.onOutcome { host := h } o).host := by
  have hf : h.login.isFatal = false := by
    by_contra hf
    simp [hm.calm (Bool.not_eq_false _ ▸ hf)] at hw
  have hp : (Turn.onOutcome { host := h } o).host.shown.phase = .closed :=
    LoginFlow.phase_onOutcome hf o
  have hpend : (Turn.onOutcome { host := h } o).host.login.isPending = false :=
    congrArg Option.isSome (h.login.pending_onOutcome o)
  refine ⟨⟨?_, ?_, fun _ => .inr hp, ?_, fun _ => hpend⟩, fun _ => .inr ?_⟩
  · simp [hpend]
  · simp [hpend]
  · simp [hpend]
  · rcases hm.waiting hw with hph | hph <;> simp [hph, hp, Phase.next]

theorem onOpened (hm : h.Mirrors) (s : Session) {failure : Option Outcome}
    (hw : failure = none → h.login.isPending = true) (c : Credentials) :
    Follows restores h (Turn.onOpened { host := h } s failure c).host := by
  by_cases hp : h.slot.phase = .opening
  · obtain ⟨held, hs⟩ := Slot.eq_opening hp
    have hlogin := Turn.login_accept { host := h } s c
    have hslot : (Turn.accept { host := h } s c).host.slot.phase = .idle :=
      (Turn.quiet_accept { host := h } s c).host.phase
    have hcreated : (Turn.accept { host := h } s c).host.created = h.created := by
      unfold Turn.accept persist
      split_ifs
      · simp only [Turn.host_modify]
        split <;> rfl
      · rfl
    rw [Turn.onOpened_of_opening (t := { host := h }) hs]
    set t := Turn.accept { host := h } s c with ht
    have hidle : ∀ p : Platform, Follows restores h { t.host with platform := p } := fun p =>
      hm.move (by rw [hlogin]) (by rw [hlogin]) (by rw [shown, shown, hlogin]) (.inl hslot)
        (by rw [hcreated]; exact id)
    rcases failure with _ | f
    · rcases held with _ | o
      · have hpend := hw rfl
        have hopening : h.shown.phase = .opening := by
          rw [hm.slot hpend (by simp [hp]), hp]
        have hpend' : (t.enterLive none s).host.login.isPending = true := by
          rw [← hpend, ← hlogin]
          rfl
        have hfatal : (t.enterLive none s).host.login.isFatal = h.login.isFatal := by
          rw [← hlogin]
          rfl
        refine ⟨⟨fun _ _ => rfl, fun _ => .inr rfl, ?_, fun _ => ?_, ?_⟩, fun _ => .inr ?_⟩
        · simp [hpend']
        · exact hcreated.trans (hm.created hpend)
        · exact fun hf => (hpend'.trans hpend.symm).trans (hm.calm (hfatal ▸ hf))
        · rw [hopening]
          exact List.mem_cons_self
      · exact hidle _
    · exact hidle _
  · rw [Turn.onOpened_of_not_opening (t := { host := h }) hp]
    exact hm.move rfl rfl rfl (.inr rfl) id

end Mirrors

end Host

namespace Turn

theorem created_terminate (t : Turn) (o : Outcome) :
    (t.terminate o).host.created = t.host.created := by
  unfold terminate
  split <;> rfl

theorem isFatal_terminate (t : Turn) (o : Outcome) :
    (t.terminate o).host.login.isFatal = t.host.login.isFatal := by
  unfold terminate
  split <;> rfl

/-- Handling an event never undoes the host's creation, and brings up the fatal screen only for a
burst of taps or from a fatal record. -/
theorem handle_spec (h : Host) (e : HostEvent) :
    (h.created = true → (handle { host := h } e).host.created = true)
      ∧ ((handle { host := h } e).host.login.isFatal = h.login.isFatal
        ∨ h.fires e = true ∨ h.restores e = true) := by
  have displayModeLost : h.onDisplayModeLost.created = h.created
      ∧ h.onDisplayModeLost.login.isFatal = h.login.isFatal := by
    unfold Host.onDisplayModeLost
    split <;> exact ⟨rfl, rfl⟩
  cases e with
  | create =>
    simp only [handle, host_modify, Host.onCreate]
    split_ifs with hc
    · exact ⟨id, .inl rfl⟩
    · refine ⟨fun _ => rfl, ?_⟩
      rcases hr : h.restored with _ | fields | m
      · left
        simp only [LoginFlow.start]
        split_ifs <;> rfl
      · exact .inl rfl
      · exact .inr (.inr (by simp [Host.restores, hc, hr]))
  | resume => exact ⟨displayModeLost.1.trans, .inl displayModeLost.2⟩
  | windowFocusChanged focused =>
    cases focused
    · exact ⟨id, .inl rfl⟩
    · exact ⟨displayModeLost.1.trans, .inl displayModeLost.2⟩
  | layoutSettled =>
    simp only [handle, host_modify, Host.onLayoutSettled]
    split <;> exact ⟨id, .inl rfl⟩
  | chromeVisibilityChanged flags =>
    simp only [handle, host_modify, Host.onChrome]
    split <;> exact ⟨id, .inl rfl⟩
  | backPressed =>
    simp only [handle, onBack]
    split
    · exact ⟨id, .inl rfl⟩
    · exact ⟨(created_terminate { host := h } .success).trans,
        .inl (isFatal_terminate { host := h } .success)⟩
  | destroy =>
    set left := modify { host := h } fun h => { h with destroyed := true, exitRequested := true }
    exact ⟨(left.created_terminate .success).trans, .inl (left.isFatal_terminate .success)⟩
  | loginClicked c =>
    simp only [handle, host_modify, Host.onLoginClicked]
    split_ifs
    · exact ⟨id, .inl rfl⟩
    split
    · rename_i login hl
      obtain ⟨⟨hf, -⟩, -, hf', -⟩ := LoginFlow.submit_eq_ok hl
      simp only [Host.launch, Host.dropSlot]
      split <;> exact ⟨id, .inl (hf'.trans hf.symm)⟩
    · exact ⟨id, .inl rfl⟩
  | iconTapped time =>
    refine ⟨id, ?_⟩
    cases hfires : h.login.taps.fires time
    · left
      simp only [handle, host_modify, LoginFlow.tap_snd, hfires]
      rfl
    · exact .inr (.inl hfires)
  | _ => exact ⟨id, .inl rfl⟩

end Turn

namespace Host.Mirrors

variable {h : Host}

theorem handle (hm : h.Mirrors) (hn : h.login.isPending = false → ∀ s, h.slot ≠ .live s)
    {e : HostEvent} (hf : h.fires e = false) :
    Follows (h.restores e) h (h.handle e).2.host := by
  obtain ⟨hc, hfatal⟩ := Turn.handle_spec h e
  have hraise : h.login.isFatal = false →
      (Turn.handle { host := h } e).host.login.isFatal = true →
        h.restores e = true ∧ h.created = false := by
    intro hlow hup
    rcases hfatal with heq | hfires | hr
    · simp [heq, hlow] at hup
    · simp [hf] at hfires
    · refine ⟨hr, ?_⟩
      cases e with
      | create => simpa [Host.restores] using (Bool.and_eq_true_iff.1 hr).1
      | _ => simp [Host.restores] at hr
  have ht : Follows (h.restores e) h (Turn.handle { host := h } e).host := by
    rcases Turn.handle_cases { host := h } e with q | ⟨t, q, heq⟩ | ⟨c, rfl, heq⟩
    · exact hm.quiet q.host hc hraise
    · rw [heq, Turn.created_terminate] at hc
      rw [heq, Turn.isFatal_terminate] at hraise
      rw [heq]
      have hq := hm.quiet q.host hc hraise
      have ht : Follows (h.restores e) t.host _ := hq.mirrors.terminate (t := t) .success
      refine ⟨ht.mirrors, fun hr => ?_⟩
      rw [Turn.phase_terminate]
      exact hq.phase hr
    · rw [heq, Turn.host_modify] at hc ⊢
      cases ht : h.takes
      · rw [onLoginClicked_of_not_takes ht]
        exact hm.move rfl rfl rfl (.inr rfl) id
      · refine hm.launch ht (launches_onLoginClicked ht (hn (free_of_takes ht)) c) (hc ?_)
        simp only [takes, Bool.and_eq_true] at ht
        exact ht.1.1.1.1
  obtain ⟨seen, hseen⟩ := h.handle_eq e
  rw [hseen]
  exact ⟨⟨ht.mirrors.slot, ht.mirrors.waiting, ht.mirrors.free, ht.mirrors.created,
    ht.mirrors.calm⟩, ht.phase⟩

theorem onCommand (hm : h.Mirrors) {restores : Bool} (c : Command) :
    Follows restores h ((Turn.onCommand { host := h } c).toOption.getD { host := h }).host := by
  rcases Turn.onCommand_spec { host := h } c with
    ⟨-, heq⟩ | ⟨-, -, heq⟩ | ⟨overlay, counter, -, heq⟩ <;> rw [heq]
  · exact hm.move rfl rfl rfl (.inr rfl) id
  · exact hm.move rfl rfl rfl (.inr rfl) id
  · have hnote : Follows restores h (Turn.note { host := h } overlay counter).host :=
      hm.move rfl rfl rfl (.inr rfl) id
    rcases c.termination? with _ | o
    · exact hnote
    · have ht : Follows restores _ _ := hnote.mirrors.terminate o
      exact ⟨ht.mirrors, ht.phase⟩

end Host.Mirrors

namespace HostLoop

variable {l l' : HostLoop} {t : Turn} {step : HostStep}

def fires (l : HostLoop) (step : HostStep) : Bool :=
  (l.event? step).any l.state.fires

def restores (l : HostLoop) (step : HostStep) : Bool :=
  (l.event? step).any l.state.restores

theorem follows_turn {lost : Nat} (hb : l.Balanced lost) (hm : l.state.Mirrors)
    (h : l.turn? step = some (l', t)) (hf : l.fires step = false) :
    Host.Follows (l.restores step) l.state t.host := by
  have hn := fun hp => (hb.rest hp).1
  cases turnOf h with
  | event e he =>
    rw [fires, he] at hf
    rw [restores, he]
    exact hm.handle hn hf
  | command k c => exact hm.onCommand c
  | outcome k o rest hq =>
    have ha := hb.accounts
    rw [errands_pop hq, HostTask.errands, Multiset.singleton_add] at ha
    exact hm.onOutcome ha.present.1 o
  | opened s failure c rest hq =>
    refine hm.onOpened s (fun hfail => ?_) c
    subst hfail
    have hmem : .up s ∈ l.errands :=
      mem_errands_of_task (hq ▸ List.mem_cons_self) (Multiset.mem_singleton_self _)
    exact (hb.accounts.eq_of_carries hmem rfl).1

theorem follows_take {lost : Nat} (hb : l.Balanced lost) (hm : l.state.Mirrors)
    (hf : l.fires step = false) :
    Host.Follows (l.restores step) l.state (l.take step).state := by
  rcases hturn : l.turn? step with _ | ⟨l', t⟩
  · obtain ⟨platform, workers, heq⟩ := l.state_take hturn
    rw [heq]
    exact hm.move rfl rfl rfl (.inr rfl) id
  · rw [take_turn hturn]
    exact follows_turn hb hm hturn hf

section Run

variable {s : HostSetup} {l₀ : HostLoop} {steps : List HostStep}

theorem mirrors_takeAll (h₀ : s.start = .ok l₀)
    (hf : ¬ Meets (fun l step => l.fires step = true) l₀ steps) :
    (l₀.takeAll steps).state.Mirrors := by
  induction steps using List.reverseRecOn with
  | nil =>
    obtain ⟨layout, rfl⟩ := start_eq h₀
    refine ⟨?_, ?_, fun _ => .inl rfl, ?_, fun _ => rfl⟩ <;> simp [LoginFlow.isPending]
  | append_singleton steps step ih =>
    obtain ⟨lost, hb, -⟩ := balanced_takeAll (balanced_start h₀) steps
    rw [meets_concat, not_or] at hf
    rw [takeAll_concat]
    exact (follows_take hb (ih hf.1) (by simpa using hf.2)).mirrors

theorem rounds_takeAll (h₀ : s.start = .ok l₀)
    (hf : ¬ Meets (fun l step => l.fires step = true) l₀ steps)
    (hr : ¬ Meets (fun l step => l.restores step = true) l₀ steps) :
    (l₀.takeAll steps).state.login.board.Rounds := by
  induction steps using List.reverseRecOn with
  | nil =>
    obtain ⟨layout, rfl⟩ := start_eq h₀
    exact ⟨[], rfl⟩
  | append_singleton steps step ih =>
    obtain ⟨lost, hb, -⟩ := balanced_takeAll (balanced_start h₀) steps
    rw [meets_concat, not_or] at hf hr
    have hm := mirrors_takeAll h₀ hf.1
    have hstep := follows_take hb hm (by simpa using hf.2)
    rw [takeAll_concat]
    exact (ih hf.1 hr.1).plain (plain_take _ step) (hstep.phase (by simpa using hr.2))

/-- What is shown of the session is what the slot holds. -/
structure Mirror (l : HostLoop) : Prop where
  opening : l.state.shown.phase = .opening ↔ l.state.slot.phase = .opening
  live : l.state.shown.phase = .live ↔ l.state.slot.phase = .live
  idle : l.state.shown.phase = .idle ∨ l.state.shown.phase = .closed ↔ l.state.slot = .idle
  attached : l.state.shown.overlayAttached = true ↔ l.state.slot.phase = .live
  windows : l.state.workers = [] →
    l.state.platform.windows.attached.length = if l.state.slot.phase = .live then 1 else 0

theorem Balanced.attached_eq_nil {lost : Nat} (hb : l.Balanced lost) (hr : l.AtRest) :
    l.state.platform.windows.attached = [] := by
  have hids := hb.accounts.windows
  rw [hr.errands_eq, Multiset.zero_bind, Multiset.coe_eq_zero] at hids
  exact List.map_eq_nil_iff.1 hids

/-- Without anything in the queue, a submission waits exactly as long as the slot is taken. -/
theorem Paired.isPending_eq (hp : l.Paired) (hh : l.halved = []) (hq : l.queue.tasks = []) :
    l.state.login.isPending = (l.state.slot.phase != .idle) := by
  rcases hslot : l.state.slot with _ | held | s
  · -- no worker works, so nothing carries a submission
    have hw := (hp.none_under_way (by simp [hslot, Slot.phase])).1
    have hr : l.AtRest := ⟨hq, hw, by simp [Host.isLive, hslot, Slot.phase]⟩
    have := (hp.toBalanced.atRest hr).2
    cases hpend : l.state.login.isPending
    · rfl
    · simp [hpend] at this
  · exact hp.pending_of_opening hh (by simp [hslot, Slot.phase])
  · have hup : .up s ∈ l.errands := by simp [errands, hslot, Slot.errands]
    exact (hp.accounts.eq_of_carries hup rfl).1

theorem Paired.mirror (hp : l.Paired) (hh : l.halved = []) (hq : l.queue.tasks = [])
    (hm : l.state.Mirrors) (ha : l.state.shown.overlayAttached = l.state.isLive) : l.Mirror := by
  have hpend := hp.isPending_eq hh hq
  have hbusy : l.state.slot.phase ≠ .idle → l.state.shown.phase = l.state.slot.phase :=
    fun hne => hm.slot (hpend.trans (bne_iff_ne.2 hne)) hne
  have hnone : l.state.slot.phase ≠ .live → l.state.workers = [] →
      l.state.platform.windows.attached = [] :=
    fun hne hw => hp.attached_eq_nil ⟨hq, hw, beq_eq_false_iff_ne.2 hne⟩
  rcases hslot : l.state.slot with _ | held | s
  · have hfree := hm.free (by simp [hpend, hslot, Slot.phase])
    refine ⟨?_, ?_, ?_, ?_, fun hw => ?_⟩
    · rcases hfree with h | h <;> simp [h, hslot, Slot.phase]
    · rcases hfree with h | h <;> simp [h, hslot, Slot.phase]
    · simp [hfree, hslot]
    · simp [ha, Host.isLive, hslot, Slot.phase]
    · simp [hnone (by simp [hslot, Slot.phase]) hw, hslot, Slot.phase]
  · have hphase := hbusy (by simp [hslot, Slot.phase])
    refine ⟨by rw [hphase], by rw [hphase], ?_, ?_, fun hw => ?_⟩
    · simp [hphase, hslot, Slot.phase]
    · simp [ha, Host.isLive, hslot, Slot.phase]
    · simp [hnone (by simp [hslot, Slot.phase]) hw, hslot, Slot.phase]
  · have hphase := hbusy (by simp [hslot, Slot.phase])
    have hup : .up s ∈ l.errands := by simp [errands, hslot, Slot.errands]
    have hids : l.state.platform.windows.ids.length = 1 := by
      have ha := hp.accounts
      obtain ⟨rest, hrest⟩ := Multiset.exists_cons_of_mem hup
      obtain ⟨id, hid⟩ := (ha.fits _ hup).1.covered
      rw [hrest] at ha
      rw [ha.ids_eq rfl, Errand.windows_up, hid, List.length_singleton]
    refine ⟨by rw [hphase], by rw [hphase], ?_, ?_, fun _ => ?_⟩
    · simp [hphase, hslot, Slot.phase]
    · simp [ha, Host.isLive, hslot, Slot.phase]
    · simpa [hslot, Slot.phase, Windows.ids] using hids

/-- In every run whose taps do not fire and that processes the outcome and the completion of each
failed attempt back to back, the presentation mirrors the slot whenever nothing waits in the
queue. Unless the host starts from a fatal record, the phases published over the run are the
beginning of rounds of opening, maybe live, and closed, and the attachments alternate, starting
with the overlay up. -/
theorem mirrored_takeAll (h₀ : s.start = .ok l₀)
    (hf : ¬ Meets (fun l step => l.fires step = true) l₀ steps) (hb : l₀.BackToBack steps) :
    ((l₀.takeAll steps).queue.tasks = [] → (l₀.takeAll steps).Mirror)
      ∧ (¬ Meets (fun l step => l.restores step = true) l₀ steps →
        (∃ rounds : List Bool,
          (l₀.takeAll steps).state.login.board.phases <+: rounds.flatMap Phase.round)
        ∧ ∃ n, (l₀.takeAll steps).state.login.board.attachments
          <+: (List.replicate n [true, false]).flatten) := by
  obtain ⟨late, hshows, -⟩ := shows_takeAll h₀ steps
  refine ⟨fun hq => ?_, fun hr => ⟨?_, ?_⟩⟩
  · exact (paired_takeAll h₀ hb.1).mirror hb.2 hq (mirrors_takeAll h₀ hf) hshows.attached
  · exact (rounds_takeAll h₀ hf hr).prefix_flatMap
  · exact (alternates_takeAll h₀ steps).prefix_flatten

end Run

/-- A run in which a first attempt is refused, and a second one goes live. -/
def recovered : List HostStep :=
  [.handle .create, .handle (.loginClicked {}), .enter 0, .answer 0 (.rejected "busy"), .deliver 0,
    .complete 0, .runTask, .runTask, .handle (.loginClicked {}), .enter 0, .answer 0 .accepted,
    .complete 0, .runTask]

/-- Such a run ends with a session shown as live, after a round that was not. -/
theorem mirrored_recovered : ((of {}).takeAll recovered).queue.tasks = []
    ∧ ((of {}).takeAll recovered).Mirror
      ∧ ((of {}).takeAll recovered).state.login.board.phases = [.opening, .closed, .opening, .live]
      ∧ ∃ rounds : List Bool,
        [.opening, .closed, .opening, .live] <+: rounds.flatMap Phase.round := by
  have h₀ : HostSetup.start {} = .ok (of {}) := rfl
  have hf : ¬ Meets (fun l step => l.fires step = true) (of {}) recovered := by decide +kernel
  have hr : ¬ Meets (fun l step => l.restores step = true) (of {}) recovered := by decide +kernel
  have hb : (of {}).BackToBack recovered := by decide +kernel
  have hq : ((of {}).takeAll recovered).queue.tasks = [] := by decide +kernel
  have hphases : ((of {}).takeAll recovered).state.login.board.phases
      = [.opening, .closed, .opening, .live] := by decide +kernel
  obtain ⟨hmirror, hstory⟩ := mirrored_takeAll h₀ hf hb
  exact ⟨hq, hmirror hq, hphases, hphases ▸ (hstory hr).1⟩

end HostLoop

end EngineShell
