import EngineShell.Proofs.Flights

/-!
# The life of a session

`SessionRun.take` carries out whatever can happen to one session, in any order. `Life` is what holds
all the time: the session only goes from created over live to torn down, it owns its window while it
is live and its sink is open until it is torn down, it asks the engine once, and it delivers the
first outcome that it comes to (`lives_takeAll`).
-/

namespace EngineShell

section Sending

variable {σ : Type} {P : σ → Prop}

theorem ScriptThread.run_induct {receive : Command → σ → Option Int × σ}
    (h : ∀ c s, P s → P (receive c s).2) (t : ScriptThread) {s : σ} (hs : P s) :
    P (t.run receive s).2 := by
  fun_induction ScriptThread.run receive t s with
  | case1 => exact hs
  | case2 t s c cs ht s' heq =>
    have hnext := h (if _ : t.asked then c else question) s hs
    rwa [heq] at hnext
  | case3 t s c cs ht reply s' heq hlt ih =>
    have hnext := h (if _ : t.asked then c else question) s hs
    rw [heq] at hnext
    exact ih hnext

theorem deliver_induct {receive : Command → σ → Int × σ} (h : ∀ c s, P s → P (receive c s).2)
    (courteous : Bool) (commands : List Command) {s : σ} (hs : P s) :
    P (deliver receive courteous commands s) := by
  unfold deliver
  split_ifs
  · exact ScriptThread.run_induct h _ hs
  · induction commands generalizing s with
    | nil => exact hs
    | cons c cs ih => exact ih (h c s hs)

end Sending

/-- The engine's commands are counted and posted, and change nothing else on the platform. -/
theorem Platform.send_eq (p : Platform) (k : Nat) (courteous : Bool) (commands : List Command) :
    ∃ metrics, (p.send k courteous commands).2 = { p with metrics } := by
  unfold send
  refine deliver_induct (P := fun s : List Command × Platform => ∃ metrics,
    s.2 = { p with metrics }) ?_ courteous commands ⟨p.metrics, rfl⟩
  rintro c ⟨posted, q⟩ ⟨metrics, rfl⟩
  simp only [apply]
  split <;> exact ⟨_, rfl⟩

namespace Session

variable (s : Session) (p : Platform)

theorem windows_teardown_of_nil {s : Session} {p : Platform} (hs : s.stage ≠ .tornDown)
    (hw : s.windows = []) : (s.teardown p).2.2.windows = p.windows := by
  rw [teardown_eq p hs]
  rcases ho : s.overlay with _ | ⟨_ | id, layout⟩
  · rfl
  · rfl
  · simp [windows, ho] at hw

theorem chrome_teardown : (s.teardown p).2.2.chrome = p.chrome := by
  by_cases h : s.stage = .tornDown
  · simp [teardown, isTornDown, h]
  · rw [teardown_eq p h]
    rfl

/-- Taking the overlay down touches nothing but the display. -/
theorem takeStep_removeOverlay {s : Session} {p : Platform}
    (hids : ∀ id ∈ s.windows, id ∈ p.windows.ids) :
    ∃ s' windows, s.takeStep p .removeOverlay = (s', { p with windows }) ∧ s'.sink = s.sink
      ∧ windows.events = p.windows.events ++ s.windows.map .removed := by
  rcases ho : s.overlay with _ | ⟨_ | id, layout⟩
  · exact ⟨s, p.windows, by simp [takeStep, ho], rfl, by simp [windows, ho]⟩
  · exact ⟨{ s with overlay := none }, p.windows, by simp [takeStep, ho, Guard.remove], rfl,
      by simp [windows, ho]⟩
  · have hid := Windows.isAttached_iff.2 (hids id (by simp [windows, ho]))
    refine ⟨{ s with overlay := none }, (p.windows.remove id).2, ?_, rfl, ?_⟩
    · simp [takeStep, ho, Guard.remove]
    · simp [Windows.remove, hid, windows, ho]

theorem layoutPass_cases : (s.layoutPass p).2 = p ∨ ∃ guard, s.overlay = some guard
    ∧ (s.layoutPass p).2 = (p.reassert.report guard.layout).2 := by
  unfold layoutPass
  rcases s.overlay with _ | guard
  · exact .inl rfl
  · exact .inr ⟨guard, rfl, rfl⟩

theorem onChrome_cases (flags : ChromeFlags) : (s.onChrome p flags).2 = p
    ∨ s.isLive = true ∧ ∃ chrome, (s.onChrome p flags).2 = (s.layoutPass { p with chrome }).2 := by
  unfold onChrome
  split_ifs with h
  · split
    · rename_i chrome _
      exact .inr ⟨h, chrome, rfl⟩
    · exact .inl rfl
  · exact .inl rfl

end Session

/-- What can happen to a session: it is used, or dropped by its owner, and meanwhile the engine
sends commands, the display gets ready to refuse a window and the user brings the bars back. -/
inductive SessionStep where
  | openWith (e : Engine) (c : Credentials)
  | finish (o : Outcome)
  | teardown
  | drop
  | reassert
  | layoutPass
  | onChrome (flags : ChromeFlags)
  | command (c : Command)
  | refuseWindow
  | reveal

def SessionStep.works : SessionStep → Bool
  | openWith .. | finish _ | teardown | drop => true
  | _ => false

/-- A session at work, and the outcomes that it has delivered. -/
structure SessionRun where
  session : Session
  platform : Platform
  delivered : List Outcome := []

namespace SessionRun

def tearDown (r : SessionRun) : SessionRun :=
  let (_, session, platform) := r.session.teardown r.platform
  { r with session, platform }

def settle (r : SessionRun) (o : Outcome) : SessionRun :=
  let (delivered, sender) := r.session.sender.send o
  { r with session := { r.session with sender }, delivered := r.delivered ++ delivered.toList }

def take (r : SessionRun) : SessionStep → SessionRun
  | .openWith e c =>
    let (_, o) := r.session.openWith r.platform e c
    ⟨o.session, o.platform, r.delivered ++ o.delivered.toList⟩
  | .finish o =>
    let (delivered, session, platform) := r.session.finish r.platform o
    ⟨session, platform, r.delivered ++ delivered.toList⟩
  | .teardown | .drop => r.tearDown
  | .reassert => { r with platform := r.session.reassert r.platform }
  | .layoutPass => { r with platform := (r.session.layoutPass r.platform).2 }
  | .onChrome flags => { r with platform := (r.session.onChrome r.platform flags).2 }
  | .command c => { r with platform := (r.platform.apply r.session.sink c).2 }
  | .refuseWindow =>
    { r with platform := { r.platform with windows := r.platform.windows.failNext } }
  | .reveal => { r with platform := { r.platform with chrome := r.platform.chrome.reveal } }

def takeAll (r : SessionRun) (steps : List SessionStep) : SessionRun :=
  steps.foldl take r

theorem takeAll_concat (r : SessionRun) (steps : List SessionStep) (step : SessionStep) :
    r.takeAll (steps ++ [step]) = (r.takeAll steps).take step := by
  rw [takeAll, takeAll, List.foldl_append, List.foldl_cons, List.foldl_nil]

/-- The outcome that a step comes to: the one it finishes the session with, or the failure of the
one attempt to open it. -/
def settles? (r : SessionRun) : SessionStep → Option Outcome
  | .finish o => some o
  | .openWith e c =>
    if r.session.stage = .created then
      (e.opening true c).answer.failure? r.platform.windows
    else none
  | _ => none

/-- The outcomes that the steps of a run come to, in order. -/
def ends (r : SessionRun) : List SessionStep → List Outcome
  | [] => []
  | step :: steps => (r.settles? step).toList ++ (r.take step).ends steps

theorem ends_concat (r : SessionRun) (steps : List SessionStep) (step : SessionStep) :
    r.ends (steps ++ [step]) = r.ends steps ++ ((r.takeAll steps).settles? step).toList := by
  induction steps generalizing r with
  | nil =>
    simp only [List.nil_append, ends, List.append_nil]
    rfl
  | cons first steps ih =>
    rw [List.cons_append, ends, ih, ends, List.append_assoc]
    rfl

theorem finish_eq (r : SessionRun) (o : Outcome) : r.take (.finish o) = r.tearDown.settle o := rfl

/-- A session that was just set up, with a sink of its own that is open. -/
structure Begins (r : SessionRun) : Prop where
  fresh : r.session.IsFresh
  accepted : r.session.accepted = false
  entry : r.platform.sinks[r.session.sink]? = some {}
  delivered : r.delivered = []

/-- What has become of the display since a session began that has put up a window, or none. -/
structure Covered (before : List WindowEvent) (window : Option Nat) (r : SessionRun) : Prop where
  events : r.platform.windows.events = before ++ window.toList.map .added
    ++ if r.session.stage = .tornDown then window.toList.map .removed else []
  owned : r.session.windows = if r.session.stage = .live then window.toList else []
  attached : ∀ id ∈ r.session.windows, id ∈ r.platform.windows.ids
  accepted : window ≠ none → r.session.accepted = true ∧ r.session.stage ≠ .created
  up : r.session.stage = .live → window ≠ none

/-- What holds of a session since it began, that has asked the engine so many times to open and has
come to some outcomes. -/
structure Life (r₀ : SessionRun) (asked : Nat) (ends : List Outcome) (r : SessionRun) : Prop where
  number : r.session.sink = r₀.session.sink
  entry : r.platform.sinks[r.session.sink]?
    = some { finishing := r.session.isTornDown, closed := r.session.isTornDown }
  guarded : r.session.overlay.isSome = r.session.isLive
  opens : r.platform.engine.opens = r₀.platform.engine.opens + asked
  link : r.platform.engine.sink
    = if asked = 0 then r₀.platform.engine.sink else some r₀.session.sink
  covered : ∃ window, Covered r₀.platform.windows.events window r
  delivered : r.delivered = ends.head?.toList
  settled : r.session.sender.settled = !ends.isEmpty
  ended : ends ≠ [] → r.session.stage = .tornDown

/-- A change of a run that touches neither the session nor what it has done. -/
structure Idles (r r' : SessionRun) : Prop where
  session : r'.session = r.session
  delivered : r'.delivered = r.delivered
  sinks : r'.platform.sinks = r.platform.sinks
  opens : r'.platform.engine.opens = r.platform.engine.opens
  link : r'.platform.engine.sink = r.platform.engine.sink
  events : r'.platform.windows.events = r.platform.windows.events
  ids : r'.platform.windows.ids = r.platform.windows.ids

variable {r₀ r r' : SessionRun} {asked : Nat} {ends : List Outcome}

theorem Covered.idles {before : List WindowEvent} {window : Option Nat}
    (hc : Covered before window r) (hi : Idles r r') : Covered before window r' := by
  obtain ⟨events, owned, attached, accepted, up⟩ := hc
  refine ⟨?_, ?_, ?_, ?_, ?_⟩ <;> rw [hi.session]
  · rw [hi.events]
    exact events
  · exact owned
  · rw [hi.ids]
    exact attached
  · exact accepted
  · exact up

theorem Life.idles (hl : Life r₀ asked ends r) (hi : Idles r r') : Life r₀ asked ends r' where
  number := hi.session ▸ hl.number
  entry := by
    rw [hi.session, hi.sinks]
    exact hl.entry
  guarded := hi.session ▸ hl.guarded
  opens := hi.opens.trans hl.opens
  link := hi.link.trans hl.link
  covered := hl.covered.imp fun _ hc => hc.idles hi
  delivered := hi.delivered.trans hl.delivered
  settled := hi.session ▸ hl.settled
  ended := hi.session ▸ hl.ended

theorem Begins.life (h : r₀.Begins) : Life r₀ 0 [] r₀ where
  number := rfl
  entry := by
    rw [h.entry, Session.isTornDown, h.fresh.created]
    rfl
  guarded := by
    rw [h.fresh.bare, Session.isLive, h.fresh.created]
    rfl
  opens := rfl
  link := rfl
  covered := by
    refine ⟨none, ?_, ?_, ?_, fun hne => (hne rfl).elim, fun hlive => ?_⟩
    · simp
    · rw [h.fresh.windows_eq]
      simp
    · simp [h.fresh.windows_eq]
    · simp [h.fresh.created] at hlive
  delivered := h.delivered
  settled := h.fresh.unsettled
  ended := fun hne => (hne rfl).elim

section TearDown

theorem tearDown_of_tornDown (h : r.session.stage = .tornDown) : r.tearDown = r := by
  simp [tearDown, Session.teardown, Session.isTornDown, h]

theorem session_tearDown (h : r.session.stage ≠ .tornDown) :
    r.tearDown.session = { r.session with overlay := none, stage := .tornDown } := by
  simp only [tearDown, Session.teardown_eq r.platform h]

theorem stage_tearDown (r : SessionRun) : r.tearDown.session.stage = .tornDown := by
  by_cases h : r.session.stage = .tornDown
  · rw [tearDown_of_tornDown h, h]
  · rw [session_tearDown h]

theorem entry_tearDown {k : Sink} (h : r.session.stage ≠ .tornDown)
    (hk : r.platform.sinks[r.session.sink]? = some k) :
    r.tearDown.platform.sinks[r.session.sink]? = some { finishing := true, closed := true } := by
  simp [tearDown, Session.teardown_eq r.platform h, Platform.modifySink, hk]

/-- A session that is torn down takes its window with it. -/
theorem Covered.tearDown {before : List WindowEvent} {window : Option Nat}
    (hc : Covered before window r) (h : r.session.stage ≠ .tornDown) :
    Covered before window r.tearDown := by
  obtain ⟨events, owned, attached, accepted, up⟩ := hc
  have hwindows : r.tearDown.session.windows = [] := by
    rw [session_tearDown h]
    rfl
  refine ⟨?_, ?_, ?_, fun hne => ?_, fun hlive => ?_⟩
  · rw [if_neg h, List.append_nil] at events
    rw [if_pos r.stage_tearDown, ← events]
    rcases window with _ | id
    · have hnone : r.session.windows = [] := by simpa using owned
      have hsame : r.tearDown.platform.windows = r.platform.windows :=
        Session.windows_teardown_of_nil h hnone
      rw [hsame]
      simp
    · -- it has put up a window and is not torn down, so that it is live and owns the window
      have hlive : r.session.stage = .live := by
        have := (accepted (by simp)).2
        rcases hs : r.session.stage with _ | _ | _
        · exact (this hs).elim
        · rfl
        · exact (h hs).elim
      rw [if_pos hlive] at owned
      exact Session.events_teardown h owned (attached id (by simp [owned]))
  · rw [hwindows, if_neg (by simp [stage_tearDown])]
  · simp [hwindows]
  · rw [session_tearDown h]
    exact ⟨(accepted hne).1, by simp⟩
  · simp [stage_tearDown] at hlive

theorem Life.tearDown (hl : Life r₀ asked ends r) : Life r₀ asked ends r.tearDown := by
  by_cases h : r.session.stage = .tornDown
  · rwa [tearDown_of_tornDown h]
  have hengine : r.tearDown.platform.engine = r.platform.engine :=
    r.session.engine_teardown r.platform
  have hs := session_tearDown h
  refine ⟨?_, ?_, ?_, ?_, ?_, ?_, hl.delivered, ?_, fun _ => r.stage_tearDown⟩
  · rw [hs]
    exact hl.number
  · rw [hs]
    exact entry_tearDown h hl.entry
  · rw [hs]
    rfl
  · rw [hengine, hl.opens]
  · rw [hengine, hl.link]
  · exact hl.covered.imp fun _ hc => hc.tearDown h
  · rw [hs]
    exact hl.settled

end TearDown

theorem Life.settle (hl : Life r₀ asked ends r) (h : r.session.stage = .tornDown) (o : Outcome) :
    Life r₀ asked (ends ++ [o]) (r.settle o) where
  number := hl.number
  entry := hl.entry
  guarded := hl.guarded
  opens := hl.opens
  link := hl.link
  covered := hl.covered.imp fun _ ⟨events, owned, attached, accepted, up⟩ =>
    ⟨events, owned, attached, accepted, up⟩
  delivered := by
    have hsettled := hl.settled
    simp only [SessionRun.settle, OutcomeSender.send, hsettled, hl.delivered]
    cases ends <;> rfl
  settled := by simp [SessionRun.settle, OutcomeSender.send]
  ended := fun _ => h

theorem Life.finish (hl : Life r₀ asked ends r) (o : Outcome) :
    Life r₀ asked (ends ++ [o]) (r.take (.finish o)) := by
  rw [finish_eq]
  exact hl.tearDown.settle r.stage_tearDown o

theorem Idles.refl (r : SessionRun) : Idles r r :=
  ⟨rfl, rfl, rfl, rfl, rfl, rfl, rfl⟩

theorem idles_layoutPass (r : SessionRun) (chrome : Chrome) :
    Idles r { r with platform := (r.session.layoutPass { r.platform with chrome }).2 } := by
  rcases r.session.layoutPass_cases { r.platform with chrome } with heq | ⟨guard, -, heq⟩ <;>
    rw [heq] <;> exact ⟨rfl, rfl, rfl, rfl, rfl, rfl, rfl⟩

theorem idles_take {step : SessionStep} (h : step.works = false) : Idles r (r.take step) := by
  cases step with
  | openWith e c => cases h
  | finish o => cases h
  | teardown => cases h
  | drop => cases h
  | reassert =>
    rw [take, Session.reassert]
    split_ifs
    · exact ⟨rfl, rfl, rfl, rfl, rfl, rfl, rfl⟩
    · exact .refl r
  | layoutPass => exact idles_layoutPass r r.platform.chrome
  | onChrome flags =>
    rw [take]
    rcases r.session.onChrome_cases r.platform flags with heq | ⟨-, chrome, heq⟩ <;> rw [heq]
    · exact .refl r
    · exact idles_layoutPass r chrome
  | command c =>
    simp only [take, Platform.apply]
    split
    · exact ⟨rfl, rfl, rfl, rfl, rfl, rfl, rfl⟩
    · exact .refl r
  | refuseWindow => exact ⟨rfl, rfl, rfl, rfl, rfl, rfl, rfl⟩
  | reveal => exact ⟨rfl, rfl, rfl, rfl, rfl, rfl, rfl⟩

def ask (r : SessionRun) (e : Engine) (c : Credentials) : SessionRun :=
  let o := e.opening true c
  { r with platform :=
      ((r.session.begin r.platform).send r.session.sink o.courteous o.commands).2 }

def conclude (r : SessionRun) (a : Answer) : SessionRun :=
  let o := r.session.conclude r.platform a
  ⟨o.session, o.platform, r.delivered ++ o.delivered.toList⟩

theorem openWith_eq (h : r.session.stage = .created) (e : Engine) (c : Credentials) :
    r.take (.openWith e c) = (r.ask e c).conclude (e.opening true c).answer := by
  simp only [take, Session.openWith, h, if_true]
  rfl

theorem openWith_of_opened (h : r.session.stage ≠ .created) (e : Engine) (c : Credentials) :
    r.session.openWith r.platform e c
      = ([], { failure := some Session.alreadyOpened, session := r.session
               platform := r.platform }) :=
  if_neg h

theorem take_openWith_of_opened (h : r.session.stage ≠ .created) (e : Engine) (c : Credentials) :
    r.take (.openWith e c) = r := by
  rw [take, openWith_of_opened h]
  simp

theorem Life.ask (hl : Life r₀ asked ends r) (e : Engine) (c : Credentials) :
    Life r₀ (asked + 1) ends (r.ask e c) := by
  obtain ⟨metrics, heq⟩ := (r.session.begin r.platform).send_eq r.session.sink
    (e.opening true c).courteous (e.opening true c).commands
  have hask : r.ask e c
      = { r with platform := { r.session.begin r.platform with metrics } } :=
    congrArg (fun platform => { r with platform }) heq
  rw [hask]
  refine ⟨hl.number, hl.entry, hl.guarded, ?_, ?_, ?_, hl.delivered, hl.settled, hl.ended⟩
  · rw [← Nat.add_assoc, ← hl.opens]
    rfl
  · rw [if_neg (Nat.succ_ne_zero asked), ← hl.number]
    rfl
  · exact hl.covered.imp fun _ ⟨events, owned, attached, accepted, up⟩ =>
      ⟨events, owned, attached, accepted, up⟩

theorem Life.refused (hl : Life r₀ asked ends r) : Life r₀ asked ends {
    session := { r.session with accepted := true }
    platform := { r.platform.count .opened with
      windows := { r.platform.windows with refuseNext := false } }
    delivered := r.delivered } where
  number := hl.number
  entry := hl.entry
  guarded := hl.guarded
  opens := hl.opens
  link := hl.link
  covered := hl.covered.imp fun _ ⟨events, owned, attached, accepted, up⟩ =>
    ⟨events, owned, attached, fun hne => ⟨rfl, (accepted hne).2⟩, up⟩
  delivered := hl.delivered
  settled := hl.settled
  ended := hl.ended

/-- The run once the display has taken the window of an accepted session. -/
def raise (r : SessionRun) : SessionRun where
  session := { r.session with
    accepted := true
    overlay := some { window := some (r.platform.windows.lastId + 1), layout := r.session.layout }
    stage := .live }
  platform := { r.platform.count .opened with
    windows := (r.platform.windows.add r.session.params).2 }.reassert
  delivered := r.delivered

theorem Life.raise (hl : Life r₀ asked [] r) (h : r.session.stage = .created)
    (hf : r.platform.windows.refuseNext = false) : Life r₀ asked [] r.raise where
  number := hl.number
  entry := by
    have hentry := hl.entry
    rw [Session.isTornDown, h] at hentry
    exact hentry
  guarded := rfl
  opens := hl.opens
  link := hl.link
  covered := by
    obtain ⟨window, events, owned, attached, accepted, up⟩ := hl.covered
    have hnone : window = none := by
      by_contra hne
      exact (accepted hne).2 h
    rw [hnone] at events
    have hadd : r.platform.windows.add r.session.params
        = (.ok (r.platform.windows.lastId + 1), { r.platform.windows with
          lastId := r.platform.windows.lastId + 1
          attached := r.platform.windows.attached
            ++ [(r.platform.windows.lastId + 1, r.session.params)]
          events := r.platform.windows.events ++ [.added (r.platform.windows.lastId + 1)] }) := by
      rw [Windows.add, if_neg (by simp [hf])]
    refine ⟨some (r.platform.windows.lastId + 1), ?_, rfl, ?_, fun _ => ⟨rfl, ?_⟩, by simp⟩
    · simp only [SessionRun.raise, Platform.reassert, hadd, events, h]
      simp
    · simp [SessionRun.raise, Platform.reassert, hadd, Session.windows, Windows.ids]
    · simp [SessionRun.raise]
  delivered := hl.delivered
  settled := hl.settled
  ended := fun hne => (hne rfl).elim

theorem Life.conclude (hl : Life r₀ asked [] r) (h : r.session.stage = .created) (a : Answer) :
    Life r₀ asked (a.failure? r.platform.windows).toList (r.conclude a) := by
  rcases ha : a.refusal? with _ | message
  · cases hf : r.platform.windows.refuseNext
    · have hconclude : r.conclude a = r.raise := by
        simp [SessionRun.conclude, Session.conclude, ha, Session.goLive, Guard.attach, Windows.add,
          hf, Platform.count, Except.map, SessionRun.raise]
      rw [hconclude, Answer.failure?, ha]
      simpa [hf] using hl.raise h hf
    · have hconclude : r.conclude a = take {
          session := { r.session with accepted := true }
          platform := { r.platform.count .opened with
            windows := { r.platform.windows with refuseNext := false } }
          delivered := r.delivered } (.finish (.fatal WindowError.refused.message)) := by
        simp only [SessionRun.conclude, Session.conclude, ha, Session.goLive, Guard.attach,
          Windows.add, Platform.count, hf, if_true]
        rfl
      rw [hconclude, Answer.failure?, ha]
      simpa [hf] using hl.refused.finish _
  · have hconclude : r.conclude a = r.take (.finish (.recoverable message)) := by
      simp only [SessionRun.conclude, Session.conclude, ha]
      rfl
    rw [hconclude, Answer.failure?, ha]
    exact hl.finish _

theorem platform_ask (r : SessionRun) (e : Engine) (c : Credentials) :
    (r.ask e c).platform.windows = r.platform.windows
      ∧ (r.ask e c).platform.chrome = r.platform.chrome
      ∧ (r.ask e c).platform.engine.reports = r.platform.engine.reports := by
  obtain ⟨metrics, heq⟩ := (r.session.begin r.platform).send_eq r.session.sink
    (e.opening true c).courteous (e.opening true c).commands
  have hplatform : (r.ask e c).platform = { r.session.begin r.platform with metrics } := heq
  rw [hplatform]
  exact ⟨rfl, rfl, rfl⟩

/-- The engine's answer brings a session live or ends it, and then the bars stay as they are. -/
theorem conclude_cases (r : SessionRun) (a : Answer) : (r.conclude a).session.stage = .live
    ∨ (r.conclude a).session.stage = .tornDown
      ∧ (r.conclude a).platform.chrome = r.platform.chrome := by
  have hfail : ∀ (s : Session) (p : Platform) (o : Outcome),
      (s.fail p o).session.stage = .tornDown ∧ (s.fail p o).platform.chrome = p.chrome :=
    fun s p o => ⟨stage_tearDown { session := s, platform := p }, s.chrome_teardown p⟩
  simp only [conclude, Session.conclude]
  split
  · exact .inr (hfail _ _ _)
  · simp only [Session.goLive]
    split
    · exact .inl rfl
    · exact .inr (hfail _ _ _)

/-- A session only goes from created over live to torn down. -/
theorem stage_take (r : SessionRun) (step : SessionStep) :
    (r.take step).session.stage = r.session.stage
      ∨ r.session.stage = .created ∧ (r.take step).session.stage = .live
      ∨ r.session.stage ≠ .tornDown ∧ (r.take step).session.stage = .tornDown := by
  have tornDown : ∀ {r' : SessionRun}, r'.session.stage = .tornDown →
      r'.session.stage = r.session.stage
        ∨ r.session.stage = .created ∧ r'.session.stage = .live
        ∨ r.session.stage ≠ .tornDown ∧ r'.session.stage = .tornDown := by
    intro r' h'
    by_cases h : r.session.stage = .tornDown
    · exact .inl (h'.trans h.symm)
    · exact .inr (.inr ⟨h, h'⟩)
  cases hworks : step.works
  · exact .inl (congrArg Session.stage (idles_take hworks).session)
  · cases step with
    | openWith e c =>
      by_cases h : r.session.stage = .created
      · rw [openWith_eq h]
        rcases (r.ask e c).conclude_cases (e.opening true c).answer with hlive | ⟨htorn, -⟩
        · exact .inr (.inl ⟨h, hlive⟩)
        · exact tornDown htorn
      · rw [take_openWith_of_opened h]
        exact .inl rfl
    | finish o => exact tornDown r.stage_tearDown
    | teardown => exact tornDown r.stage_tearDown
    | drop => exact tornDown r.stage_tearDown
    | _ => cases hworks

def asks (r : SessionRun) : SessionStep → Bool
  | .openWith .. => r.session.stage == .created
  | _ => false

theorem Life.take (hl : Life r₀ asked ends r) (step : SessionStep) :
    Life r₀ (asked + (r.asks step).toNat) (ends ++ (r.settles? step).toList) (r.take step) := by
  have quiet : ∀ {r' : SessionRun} {step : SessionStep}, Life r₀ asked ends r' →
      r.asks step = false → r.settles? step = none →
      Life r₀ (asked + (r.asks step).toNat) (ends ++ (r.settles? step).toList) r' := by
    intro r' step hl' hasks hsettles
    rw [hasks, hsettles]
    simpa using hl'
  cases hworks : step.works
  · refine quiet (hl.idles (idles_take hworks)) ?_ ?_ <;> cases step <;> first | rfl | cases hworks
  · cases step with
    | openWith e c =>
      by_cases h : r.session.stage = .created
      · -- whatever a session comes to tears it down
        have hnil : ends = [] := by
          by_contra hne
          simp [hl.ended hne] at h
        subst hnil
        have hopened := (hl.ask e c).conclude h (e.opening true c).answer
        rw [(r.platform_ask e c).1, ← openWith_eq h] at hopened
        simpa [asks, settles?, h] using hopened
      · rw [take_openWith_of_opened h]
        exact quiet hl (by simp [asks, h]) (by simp [settles?, h])
    | finish o => exact hl.finish o
    | teardown => exact quiet hl.tearDown rfl rfl
    | drop => exact quiet hl.tearDown rfl rfl
    | _ => cases hworks

theorem not_created_of_asks {step : SessionStep} (h : r.asks step = true) :
    r.session.stage = .created ∧ (r.take step).session.stage ≠ .created := by
  cases step with
  | openWith e c =>
    have hs : r.session.stage = .created := by simpa [asks] using h
    refine ⟨hs, ?_⟩
    rw [openWith_eq hs]
    rcases (r.ask e c).conclude_cases (e.opening true c).answer with h | ⟨h, -⟩ <;> simp [h]
  | _ => cases h

/-- The engine is asked at most once, and not as long as the session is just created. -/
theorem life_takeAll (h₀ : r₀.Begins) (steps : List SessionStep) :
    ∃ asked, Life r₀ asked (r₀.ends steps) (r₀.takeAll steps) ∧ asked ≤ 1
      ∧ ((r₀.takeAll steps).session.stage = .created → asked = 0) := by
  induction steps using List.reverseRecOn with
  | nil => exact ⟨0, h₀.life, Nat.zero_le 1, fun _ => rfl⟩
  | append_singleton steps step ih =>
    obtain ⟨asked, hl, hone, hzero⟩ := ih
    rw [takeAll_concat, ends_concat]
    refine ⟨_, hl.take step, ?_⟩
    cases hasks : (r₀.takeAll steps).asks step
    · refine ⟨hone, fun hs => hzero ?_⟩
      rcases (r₀.takeAll steps).stage_take step with h | ⟨h, -⟩ | ⟨-, h⟩
      · exact h.symm.trans hs
      · exact h
      · rw [h] at hs
        cases hs
    · -- the step finds the session just created, and it leaves that stage for good
      obtain ⟨hs, hs'⟩ := not_created_of_asks hasks
      rw [hzero hs]
      exact ⟨Nat.le_refl 1, fun h => (hs' h).elim⟩

/-- The engine is told its table by a session that owns its window. -/
theorem reports_take (r : SessionRun) (step : SessionStep) :
    (r.take step).platform.engine.reports = r.platform.engine.reports
      ∨ r.session.overlay.isSome = true := by
  have layoutPass : ∀ chrome : Chrome, (r.session.layoutPass
      { r.platform with chrome }).2.engine.reports = r.platform.engine.reports
        ∨ r.session.overlay.isSome = true := by
    intro chrome
    rcases r.session.layoutPass_cases { r.platform with chrome } with heq | ⟨guard, ho, -⟩
    · exact .inl (by rw [heq])
    · exact .inr (by rw [ho]; rfl)
  have tearDown : r.tearDown.platform.engine.reports = r.platform.engine.reports :=
    congrArg EngineLink.reports (r.session.engine_teardown r.platform)
  cases step with
  | openWith e c =>
    left
    by_cases h : r.session.stage = .created
    · rw [openWith_eq h, ← (r.platform_ask e c).2.2]
      exact congrArg EngineLink.reports ((r.ask e c).session.engine_conclude _ _)
    · rw [take_openWith_of_opened h]
  | finish o => exact .inl tearDown
  | teardown => exact .inl tearDown
  | drop => exact .inl tearDown
  | reassert =>
    left
    rw [take, Session.reassert]
    split_ifs <;> rfl
  | layoutPass => exact layoutPass r.platform.chrome
  | onChrome flags =>
    rw [take]
    rcases r.session.onChrome_cases r.platform flags with heq | ⟨-, chrome, heq⟩ <;> rw [heq]
    · exact .inl rfl
    · exact layoutPass chrome
  | command c =>
    left
    simp only [take, Platform.apply]
    split <;> rfl
  | refuseWindow => exact .inl rfl
  | reveal => exact .inl rfl

/-- The bars are set by a session that goes live, or is. -/
theorem chrome_take (r : SessionRun) (step : SessionStep)
    (hg : r.session.overlay.isSome = r.session.isLive) :
    (r.take step).platform.chrome = r.platform.chrome ∨ step = .reveal
      ∨ (r.take step).session.stage = .live := by
  have tearDown : r.tearDown.platform.chrome = r.platform.chrome :=
    r.session.chrome_teardown r.platform
  have live : r.session.isLive = true → r.session.stage = .live := by
    intro h
    simpa [Session.isLive] using h
  cases step with
  | openWith e c =>
    by_cases h : r.session.stage = .created
    · rw [openWith_eq h, ← (r.platform_ask e c).2.1]
      rcases (r.ask e c).conclude_cases (e.opening true c).answer with hlive | ⟨-, hchrome⟩
      · exact .inr (.inr hlive)
      · exact .inl hchrome
    · rw [take_openWith_of_opened h]
      exact .inl rfl
  | finish o => exact .inl tearDown
  | teardown => exact .inl tearDown
  | drop => exact .inl tearDown
  | reassert =>
    by_cases h : r.session.isLive = true
    · exact .inr (.inr (live h))
    · rw [take, Session.reassert, if_neg h]
      exact .inl rfl
  | layoutPass =>
    rcases r.session.layoutPass_cases r.platform with heq | ⟨guard, ho, -⟩
    · rw [take, heq]
      exact .inl rfl
    · rw [ho] at hg
      exact .inr (.inr (live hg.symm))
  | onChrome flags =>
    rcases r.session.onChrome_cases r.platform flags with heq | ⟨h, -⟩
    · rw [take, heq]
      exact .inl rfl
    · exact .inr (.inr (live h))
  | command c =>
    left
    simp only [take, Platform.apply]
    split <;> rfl
  | refuseWindow => exact .inl rfl
  | reveal => exact .inr (.inl rfl)

/-- The order of a teardown. The sink is marked as finishing first, then the window goes away, and
then the sink is closed. -/
theorem takeSteps_spec (hentry : r.platform.sinks[r.session.sink]? = some {})
    (hids : ∀ id ∈ r.session.windows, id ∈ r.platform.windows.ids) (n : Nat) :
    (r.session.takeSteps r.platform (TeardownStep.all.take n)).2.sinks[r.session.sink]?
        = some { finishing := decide (0 < n), closed := decide (2 < n) }
      ∧ (r.session.takeSteps r.platform (TeardownStep.all.take n)).2.windows.events
        = r.platform.windows.events ++ if 1 < n then r.session.windows.map .removed else [] := by
  have hmarked : (r.session.takeStep r.platform .markFinishing).2.sinks[r.session.sink]?
      = some { finishing := true } := by
    simp [Session.takeStep, Platform.modifySink, hentry]
  obtain ⟨s, windows, hremove, hsink, hevents⟩ := Session.takeStep_removeOverlay
    (s := r.session) (p := (r.session.takeStep r.platform .markFinishing).2) hids
  rcases n with _ | _ | _ | n
  · simpa [Session.takeSteps] using hentry
  · exact ⟨hmarked, (List.append_nil _).symm⟩
  · have hsteps : r.session.takeSteps r.platform (TeardownStep.all.take 2)
        = (s, { (r.session.takeStep r.platform .markFinishing).2 with windows }) := hremove
    rw [hsteps]
    exact ⟨hmarked, hevents⟩
  · have hsteps : r.session.takeSteps r.platform (TeardownStep.all.take (n + 3))
        = s.takeStep { (r.session.takeStep r.platform .markFinishing).2 with windows }
          .closeSink := by
      rw [TeardownStep.all, List.take_of_length_le (by simp)]
      exact congrArg (fun done => done.1.takeStep done.2 .closeSink) hremove
    rw [hsteps]
    refine ⟨?_, by simpa [Session.takeStep, Platform.modifySink] using hevents⟩
    simp [Session.takeStep, Platform.modifySink, hsink, hentry]

theorem accepted_tearDown (r : SessionRun) :
    r.tearDown.session.accepted = r.session.accepted := by
  by_cases h : r.session.stage = .tornDown
  · rw [tearDown_of_tornDown h]
  · rw [session_tearDown h]

theorem accepted_take (r : SessionRun) (step : SessionStep) :
    (r.take step).session.accepted = r.session.accepted
      ∨ ∃ e c, step = .openWith e c ∧ r.session.stage = .created
        ∧ (e.opening true c).answer.refusal? = none := by
  cases hworks : step.works
  · exact .inl (congrArg Session.accepted (idles_take hworks).session)
  · cases step with
    | openWith e c =>
      by_cases h : r.session.stage = .created
      · rcases ha : (e.opening true c).answer.refusal? with _ | message
        · exact .inr ⟨e, c, rfl, h, ha⟩
        · left
          simp only [openWith_eq h, conclude, Session.conclude, ha]
          exact (r.ask e c).accepted_tearDown
      · rw [take_openWith_of_opened h]
        exact .inl rfl
    | finish o => exact .inl r.accepted_tearDown
    | teardown => exact .inl r.accepted_tearDown
    | drop => exact .inl r.accepted_tearDown
    | _ => cases hworks

theorem Life.sink_eq (hl : Life r₀ asked ends r) : r.platform.sink r₀.session.sink
    = { finishing := r.session.isTornDown, closed := r.session.isTornDown } := by
  rw [Platform.sink, ← hl.number, hl.entry]
  rfl

theorem failure_openWith (h : r.session.stage = .created) (e : Engine) (c : Credentials) :
    (r.session.openWith r.platform e c).2.failure
      = (e.opening true c).answer.failure? r.platform.windows := by
  rw [← (r.platform_ask e c).1, ← Session.failure_conclude]
  simp only [Session.openWith, h, if_true]
  rfl

/-- What a step may do to a session that has come so far, and what a teardown does at each
moment. -/
structure Obeys (r : SessionRun) (step : SessionStep) : Prop where
  stage : (r.take step).session.stage = r.session.stage
    ∨ r.session.stage = .created ∧ (r.take step).session.stage = .live
    ∨ r.session.stage ≠ .tornDown ∧ (r.take step).session.stage = .tornDown
  finishing : (r.platform.sink r.session.sink).finishing = true →
    ((r.take step).platform.sink r.session.sink).finishing = true
  accepted : (r.take step).session.accepted = r.session.accepted
    ∨ ∃ e c, step = .openWith e c ∧ r.session.stage = .created
      ∧ (e.opening true c).answer.refusal? = none
  opened : ∀ e c, r.session.stage = .created → (r.session.openWith r.platform e c).2.failure
    = (e.opening true c).answer.failure? r.platform.windows
  again : ∀ e c, r.session.stage ≠ .created → r.session.openWith r.platform e c
    = ([], { failure := some Session.alreadyOpened, session := r.session, platform := r.platform })
  told : (r.take step).platform.engine.reports ≠ r.platform.engine.reports →
    r.session.stage = .live
  shown : (r.take step).platform.chrome ≠ r.platform.chrome →
    step = .reveal ∨ (r.take step).session.stage = .live
  order : r.session.stage ≠ .tornDown → ∀ n,
    (r.session.takeSteps r.platform (TeardownStep.all.take n)).2.sinks[r.session.sink]?
        = some { finishing := decide (0 < n), closed := decide (2 < n) }
      ∧ (r.session.takeSteps r.platform (TeardownStep.all.take n)).2.windows.events
        = r.platform.windows.events ++ if 1 < n then r.session.windows.map .removed else []
  torn : r.session.stage = .live → (r.take step).session.stage = .tornDown →
    (r.take step).platform = (r.session.takeSteps r.platform TeardownStep.all).2

theorem platform_take_of_live (h : r.session.stage = .live) {step : SessionStep}
    (h' : (r.take step).session.stage = .tornDown) :
    (r.take step).platform = (r.session.takeSteps r.platform TeardownStep.all).2 := by
  have tearDown : r.tearDown.platform
      = (r.session.takeSteps r.platform TeardownStep.all).2 := by
    simp [SessionRun.tearDown, Session.teardown, Session.isTornDown, h]
  cases hworks : step.works
  · rw [(idles_take hworks).session, h] at h'
    cases h'
  · cases step with
    | openWith e c =>
      rw [take_openWith_of_opened (by simp [h]), h] at h'
      cases h'
    | finish o => exact tearDown
    | teardown => exact tearDown
    | drop => exact tearDown
    | _ => cases hworks

theorem Life.obeys (hl : Life r₀ asked ends r) (step : SessionStep) : r.Obeys step where
  stage := r.stage_take step
  finishing := by
    have hsink := hl.sink_eq
    have hsink' := (hl.take step).sink_eq
    rw [hl.number, hsink, hsink']
    intro htorn
    have hs : r.session.stage = .tornDown := by simpa [Session.isTornDown] using htorn
    rcases r.stage_take step with h | ⟨h, -⟩ | ⟨h, -⟩
    · simp [Session.isTornDown, h, hs]
    · simp [h] at hs
    · exact (h hs).elim
  accepted := r.accepted_take step
  opened := fun e c h => failure_openWith h e c
  again := fun e c h => openWith_of_opened h e c
  told := by
    intro hne
    have hlive := hl.guarded
    rw [(r.reports_take step).resolve_left hne] at hlive
    simpa [Session.isLive] using hlive.symm
  shown := (r.chrome_take step hl.guarded).resolve_left
  order := by
    intro h n
    obtain ⟨window, hc⟩ := hl.covered
    have hopen : r.session.isTornDown = false := by simpa [Session.isTornDown] using h
    have hentry := hl.entry
    rw [hopen] at hentry
    exact takeSteps_spec hentry hc.attached n
  torn := fun h => platform_take_of_live h

/-- Whatever is done to a session in whichever order, it lives one life. -/
theorem lives_takeAll (h₀ : r₀.Begins) (steps : List SessionStep) (step : SessionStep) :
    (∃ asked, Life r₀ asked (r₀.ends steps) (r₀.takeAll steps) ∧ asked ≤ 1
      ∧ ((r₀.takeAll steps).session.stage = .created → asked = 0))
      ∧ (r₀.takeAll steps).Obeys step := by
  obtain ⟨asked, hl, hone, hzero⟩ := life_takeAll h₀ steps
  exact ⟨⟨asked, hl, hone, hzero⟩, hl.obeys step⟩

def newcomer : SessionRun where
  session := { sink := 0, layout := {}, params := .overlay {} }
  platform := { sinks := [{}] }

/-- A life in which nearly everything is tried twice. -/
def eventful : List SessionStep :=
  [.layoutPass, .openWith (.scripted (.rejected "") [.of .setTitle "title"]) {}, .layoutPass,
    .openWith (.scripted .accepted []) {}, .reveal, .onChrome 0, .finish .success, .teardown,
    .finish (.fatal "late"), .reassert, .drop]

/-- It ends with the first outcome, and with the window taken down once. -/
theorem lives_eventful : newcomer.Begins
    ∧ (newcomer.takeAll eventful).delivered = [.success]
    ∧ (newcomer.takeAll eventful).platform.windows.events = [.added 1, .removed 1]
    ∧ (newcomer.takeAll eventful).platform.engine.opens ≤ 1
    ∧ (newcomer.takeAll eventful).session.openWith (newcomer.takeAll eventful).platform
        (.scripted .accepted []) {}
      = ([], {
        failure := some Session.alreadyOpened
        session := (newcomer.takeAll eventful).session
        platform := (newcomer.takeAll eventful).platform }) := by
  have h₀ : newcomer.Begins := ⟨⟨rfl, rfl, rfl⟩, rfl, rfl, rfl⟩
  obtain ⟨⟨asked, hl, hone, -⟩, hobeys⟩ := lives_takeAll h₀ eventful .drop
  have hends : newcomer.ends eventful = [.success, .fatal "late"] := by decide +kernel
  refine ⟨h₀, ?_, by decide +kernel, ?_, hobeys.again _ _ (by decide +kernel)⟩
  · rw [hl.delivered, hends]
    rfl
  · rw [hl.opens, show newcomer.platform.engine.opens = 0 from rfl, Nat.zero_add]
    exact hone

end SessionRun

end EngineShell
