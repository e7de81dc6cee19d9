import EngineShell.Proofs.Windows

/-!
# A script and the teardown of its session

A script thread asks whether the host finishes, sends a command, and so on. The three steps of a
teardown fall between its steps wherever they like (`ScriptRun.take`). The host is marked as
finishing before the sink is closed, so only a command whose question came before the mark can be
dropped (`Playing`). What is posted is the beginning of the script, one command at most is dropped,
and nothing is sent after the answer that the host finishes (`played_takeAll`).
-/

namespace EngineShell

namespace ScriptThread

variable {σ : Type} {receive : Command → σ → Option Int × σ} {t : ScriptThread} {s : σ}

theorem next?_eq_none_iff : t.next? = none ↔ t.remaining = [] := by
  unfold next?
  split <;> simp [*]

theorem run_of_nil (h : t.remaining = []) : t.run receive s = (some t.sent, s) := by
  obtain ⟨remaining, asked, sent⟩ := t
  obtain rfl : remaining = [] := h
  rw [run]

theorem run_of_next {c : Command} {reply : Int} {s' : σ} (h : t.next? = some c)
    (hreceive : receive c s = (some reply, s')) :
    t.run receive s = (t.advance reply).run receive s' := by
  obtain ⟨_ | ⟨c', cs⟩, asked, sent⟩ := t
  · cases h
  · obtain rfl : (if asked then c' else question) = c := Option.some.inj h
    rw [run]
    simp only [hreceive]

end ScriptThread

/-- What happens next while a script is played. -/
inductive ScriptStep where
  | thread
  | teardown
  deriving DecidableEq

/-- A session whose script is played: the thread, the steps of the teardown that are done, and
what the thread has sent with the replies. -/
structure ScriptRun where
  session : Session
  platform : Platform
  thread : ScriptThread
  torn : Nat := 0
  calls : List (Command × SinkReply) := []

namespace ScriptRun

def start (s : Session) (p : Platform) (commands : List Command) : ScriptRun where
  session := s
  platform := p
  thread := { remaining := commands }

/-- The commands that reached the presentation loop, in order. -/
def posted (r : ScriptRun) : List Command :=
  r.calls.filterMap fun call => call.2.posted

/-- The commands that found the sink closed. -/
def dropped (r : ScriptRun) : List Command :=
  (r.calls.filter fun call => call.2.counter == some .afterClose).map (·.1)

/-- The thread sends a command through the sink of the session. -/
def say (r : ScriptRun) (c : Command) : ScriptRun :=
  let (reply, platform) := r.platform.apply r.session.sink c
  { r with
    platform
    thread := r.thread.advance reply.value
    calls := r.calls ++ [(c, reply)] }

def play (r : ScriptRun) : ScriptRun :=
  match r.thread.next? with
  | none => r
  | some c => r.say c

def tear (r : ScriptRun) : ScriptRun :=
  match TeardownStep.all[r.torn]? with
  | none => r
  | some step =>
    let (session, platform) := r.session.takeStep r.platform step
    { r with session, platform, torn := r.torn + 1 }

def take (r : ScriptRun) : ScriptStep → ScriptRun
  | .thread => r.play
  | .teardown => r.tear

def takeAll (r : ScriptRun) (steps : List ScriptStep) : ScriptRun :=
  steps.foldl take r

theorem takeAll_concat (r : ScriptRun) (steps : List ScriptStep) (step : ScriptStep) :
    r.takeAll (steps ++ [step]) = (r.takeAll steps).take step := by
  rw [takeAll, takeAll, List.foldl_append, List.foldl_cons, List.foldl_nil]

section Saying

variable (r : ScriptRun) (c : Command)

/-- The reply to the next command. -/
def reply : SinkReply :=
  (r.platform.sink r.session.sink).apply c

theorem calls_say : (r.say c).calls = r.calls ++ [(c, r.reply c)] := rfl

theorem thread_say : (r.say c).thread = r.thread.advance (r.reply c).value := rfl

theorem posted_say : (r.say c).posted = r.posted ++ (r.reply c).posted.toList := by
  rw [posted, calls_say, List.filterMap_append, posted, List.filterMap_cons, List.filterMap_nil]
  cases (r.reply c).posted <;> rfl

theorem dropped_say : (r.say c).dropped
    = r.dropped ++ if (r.reply c).counter = some .afterClose then [c] else [] := by
  rw [dropped, calls_say, List.filter_append, List.map_append, dropped]
  split_ifs with h <;> simp [h]

theorem afterClose_say : (r.say c).platform.metrics.afterClose
    = r.platform.metrics.afterClose
      + if (r.reply c).counter = some .afterClose then 1 else 0 := by
  change (r.platform.apply r.session.sink c).2.metrics.afterClose = _
  rw [Platform.apply, reply]
  rcases ((r.platform.sink r.session.sink).apply c).counter with _ | counter
  · rfl
  · cases counter <;> rfl

end Saying

/-- How far a script has come. -/
structure Playing (commands : List Command) (s : Session) (p : Platform) (r : ScriptRun) :
    Prop where
  number : r.session.sink = s.sink
  entry : r.platform.sinks[s.sink]?
    = some { finishing := decide (0 < r.torn), closed := decide (2 < r.torn) }
  sent : r.posted ++ r.dropped = commands.take r.thread.sent
  fits : r.thread.sent ≤ commands.length
  rest : r.thread.remaining = commands.drop r.thread.sent ∨ r.thread.remaining = [] ∧ 0 < r.torn
  /-- A command is dropped only if its question came before the mark, so there is no second one. -/
  few : r.dropped = [] ∨ r.dropped.length = 1 ∧ 0 < r.torn ∧ r.thread.asked = false
  stopped : ∀ before call after, r.calls = before ++ call :: after → call.2.value = 1 →
    after = [] ∧ r.thread.remaining = []
  counted : r.platform.metrics.afterClose = p.metrics.afterClose + r.dropped.length

namespace Playing

variable {commands : List Command} {s : Session} {p : Platform} {r : ScriptRun}

theorem start (hentry : p.sinks[s.sink]? = some {}) :
    Playing commands s p (start s p commands) where
  number := rfl
  entry := hentry
  sent := rfl
  fits := Nat.zero_le _
  rest := .inl rfl
  few := .inl rfl
  stopped := by simp [ScriptRun.start]
  counted := rfl

theorem count (h : Playing commands s p r) :
    r.thread.sent = r.posted.length + r.dropped.length := by
  rw [← List.length_append, h.sent, List.length_take, Nat.min_eq_left h.fits]

theorem sink_eq (h : Playing commands s p r) : r.platform.sink r.session.sink
    = { finishing := decide (0 < r.torn), closed := decide (2 < r.torn) } := by
  rw [Platform.sink, h.number, h.entry]
  rfl

theorem reply_question (h : Playing commands s p r) : r.reply ScriptThread.question
    = { value := flag (decide (0 < r.torn)), counter := some .query } := by
  have hcode : ScriptThread.question.code = Action.queryFinishing.code := rfl
  rw [reply, h.sink_eq, Sink.apply, if_pos hcode]

theorem reply_of_ne (h : Playing commands s p r) {c : Command}
    (hc : c.code ≠ Action.queryFinishing.code) : r.reply c
      = if 2 < r.torn then { counter := some .afterClose } else { posted := some c } := by
  rw [reply, h.sink_eq, Sink.apply, if_neg hc]
  simp

theorem entry_say (h : Playing commands s p r) (c : Command) :
    (r.say c).platform.sinks[s.sink]?
      = some { finishing := decide (0 < r.torn), closed := decide (2 < r.torn) } := by
  have hsinks : (r.say c).platform.sinks = r.platform.sinks :=
    (Platform.sinks_apply r.platform r.session.sink c).1
  rw [hsinks, h.entry]

/-- Nothing was said after an answer that ends the thread, as it has something to send. -/
theorem stopped_say (h : Playing commands s p r) (hrest : r.thread.remaining ≠ []) (c : Command)
    (hlast : (r.reply c).value = 1 → (r.say c).thread.remaining = [])
    (before : List (Command × SinkReply)) (call : Command × SinkReply)
    (after : List (Command × SinkReply)) (heq : (r.say c).calls = before ++ call :: after)
    (hcall : call.2.value = 1) : after = [] ∧ (r.say c).thread.remaining = [] := by
  rw [calls_say] at heq
  obtain ⟨-, rfl, rfl⟩ | ⟨after', -, hlog⟩ := concat_eq_append_cons heq
  · exact ⟨rfl, hlast hcall⟩
  · exact absurd (h.stopped before call after' hlog hcall).2 hrest

/-- The thread asks: it goes on to the command, or stops for good. -/
theorem ask (h : Playing commands s p r) (hrest : r.thread.remaining ≠ [])
    (hasked : r.thread.asked = false) : Playing commands s p (r.say ScriptThread.question) := by
  have hposted : (r.say ScriptThread.question).posted = r.posted := by
    simp [posted_say, h.reply_question]
  have hdropped : (r.say ScriptThread.question).dropped = r.dropped := by
    simp [dropped_say, h.reply_question]
  have hthread : (r.say ScriptThread.question).thread
      = if 0 < r.torn then { r.thread with remaining := [] }
        else { r.thread with asked := true } := by
    rw [thread_say, h.reply_question, ScriptThread.advance, hasked]
    by_cases ht : 0 < r.torn <;> simp [ht, flag, hasked]
  have hsent : (r.say ScriptThread.question).thread.sent = r.thread.sent := by
    rw [hthread]
    split_ifs <;> rfl
  refine
    { number := h.number
      entry := h.entry_say _
      sent := by rw [hposted, hdropped, hsent, h.sent]
      fits := hsent ▸ h.fits
      rest := ?_
      few := ?_
      stopped := h.stopped_say hrest _ fun hvalue => ?_
      counted := by simp [afterClose_say, h.reply_question, hdropped, h.counted] }
  · change _ ∨ _ ∧ 0 < r.torn
    rw [hsent, hthread]
    split_ifs with ht
    · exact .inr ⟨rfl, ht⟩
    · exact .inl (h.rest.resolve_right fun hr => ht hr.2)
  · change _ ∨ _ ∧ 0 < r.torn ∧ _
    rw [hdropped, hthread]
    refine h.few.imp_right fun hfew => ⟨hfew.1, hfew.2.1, ?_⟩
    rw [if_pos hfew.2.1]
    exact hasked
  · have ht : 0 < r.torn := by
      by_contra ht
      simp [h.reply_question, ht, flag] at hvalue
    rw [hthread, if_pos ht]

/-- The thread sends the command it has asked for. If the sink is closed by now, it is the first
that is dropped. -/
theorem deliver (h : Playing commands s p r) {c : Command} {cs : List Command}
    (hrest : r.thread.remaining = c :: cs) (hasked : r.thread.asked = true)
    (hc : c.code ≠ Action.queryFinishing.code) : Playing commands s p (r.say c) := by
  have hnone : r.dropped = [] := h.few.resolve_right fun hfew => by simp [hasked] at hfew
  have hdrop : commands.drop r.thread.sent = c :: cs := by
    rcases h.rest with heq | ⟨heq, -⟩
    · exact heq ▸ hrest
    · simp [heq] at hrest
  have hlt : r.thread.sent < commands.length := by
    by_contra hge
    simp [List.drop_of_length_le (Nat.le_of_not_lt hge)] at hdrop
  have hget : commands[r.thread.sent] = c := by
    rw [List.drop_eq_getElem_cons hlt] at hdrop
    exact (List.cons.inj hdrop).1
  have hthread : (r.say c).thread
      = { remaining := cs, asked := false, sent := r.thread.sent + 1 } := by
    rw [thread_say, ScriptThread.advance, if_pos hasked, hrest, List.tail_cons]
  have hboth : (r.say c).posted ++ (r.say c).dropped = r.posted ++ [c] := by
    rw [posted_say, dropped_say, h.reply_of_ne hc, hnone]
    split_ifs <;> simp_all
  refine
    { number := h.number
      entry := h.entry_say c
      sent := ?_
      fits := by rw [hthread]; exact hlt
      rest := ?_
      few := ?_
      stopped := h.stopped_say (by simp [hrest]) c fun hvalue => ?_
      counted := ?_ }
  · have hsent := h.sent
    rw [hnone, List.append_nil] at hsent
    rw [hboth, hsent, hthread, List.take_add_one, List.getElem?_eq_getElem hlt, hget]
    rfl
  · left
    rw [hthread, ← List.tail_drop, hdrop, List.tail_cons]
  · rw [dropped_say, h.reply_of_ne hc, hnone, hthread]
    by_cases ht : 2 < r.torn
    · exact .inr ⟨by simp [ht], Nat.lt_trans (by decide) ht, rfl⟩
    · exact .inl (by simp [ht])
  · rw [h.reply_of_ne hc] at hvalue
    split_ifs at hvalue <;> simp at hvalue
  · rw [afterClose_say, dropped_say, h.counted, hnone]
    split_ifs <;> simp

theorem play (h : Playing commands s p r)
    (hq : ∀ c ∈ commands, c.code ≠ Action.queryFinishing.code) : Playing commands s p r.play := by
  rcases hrest : r.thread.remaining with _ | ⟨c, cs⟩
  · rw [ScriptRun.play, ScriptThread.next?_eq_none_iff.2 hrest]
    exact h
  · have hnext : r.thread.next? = some (if r.thread.asked then c else ScriptThread.question) := by
      rw [ScriptThread.next?, hrest]
    rw [ScriptRun.play, hnext]
    cases hasked : r.thread.asked
    · exact h.ask (by simp [hrest]) hasked
    · refine h.deliver hrest hasked (hq c ?_)
      rcases h.rest with heq | ⟨heq, -⟩
      · exact List.mem_of_mem_drop (heq ▸ hrest ▸ List.mem_cons_self)
      · simp [heq] at hrest

/-- A step of the teardown changes the sink and nothing of what was said. -/
theorem tear (h : Playing commands s p r) : Playing commands s p r.tear := by
  unfold ScriptRun.tear
  split
  case h_1 => exact h
  case h_2 step hstep =>
    have hsession : (r.session.takeStep r.platform step).1.sink = s.sink := by
      rw [← h.number]
      cases step with
      | removeOverlay =>
        rw [Session.takeStep]
        split <;> rfl
      | _ => rfl
    have hmetrics : (r.session.takeStep r.platform step).2.metrics = r.platform.metrics := by
      cases step with
      | removeOverlay =>
        rw [Session.takeStep]
        split <;> rfl
      | _ => rfl
    have hentry : (r.session.takeStep r.platform step).2.sinks[s.sink]?
        = some { finishing := decide (0 < r.torn + 1), closed := decide (2 < r.torn + 1) } := by
      have hentry := h.entry
      rcases ht : r.torn with _ | _ | _ | n <;> rw [ht] at hstep hentry
      · obtain rfl : TeardownStep.markFinishing = step := Option.some.inj hstep
        simp [Session.takeStep, Platform.modifySink, h.number, hentry]
      · obtain rfl : TeardownStep.removeOverlay = step := Option.some.inj hstep
        rw [Session.takeStep]
        split <;> simp [hentry]
      · obtain rfl : TeardownStep.closeSink = step := Option.some.inj hstep
        simp [Session.takeStep, Platform.modifySink, h.number, hentry]
      · simp [TeardownStep.all] at hstep
    exact
      { number := hsession
        entry := hentry
        sent := h.sent
        fits := h.fits
        rest := h.rest.imp_right fun hr => ⟨hr.1, Nat.succ_pos _⟩
        few := h.few.imp_right fun hf => ⟨hf.1, Nat.succ_pos _, hf.2.2⟩
        stopped := h.stopped
        counted := (congrArg Metrics.afterClose hmetrics).trans h.counted }

theorem takeAll (hentry : p.sinks[s.sink]? = some {})
    (hq : ∀ c ∈ commands, c.code ≠ Action.queryFinishing.code) (steps : List ScriptStep) :
    Playing commands s p ((ScriptRun.start s p commands).takeAll steps) := by
  induction steps using List.reverseRecOn with
  | nil => exact start hentry
  | append_singleton steps step ih =>
    rw [takeAll_concat]
    cases step with
    | thread => exact ih.play hq
    | teardown => exact ih.tear

end Playing

/-- The thread is at its end after two steps for each command. -/
theorem steps_takeAll (s : Session) (p : Platform) (commands : List Command)
    (steps : List ScriptStep) : ((start s p commands).takeAll steps).thread.remaining = []
      ∨ ((start s p commands).takeAll steps).thread.steps + steps.count .thread
        ≤ 2 * commands.length + 1 := by
  induction steps using List.reverseRecOn with
  | nil => exact .inr (Nat.le_refl _)
  | append_singleton steps step ih =>
    rw [takeAll_concat]
    set r := (start s p commands).takeAll steps
    cases step with
    | thread =>
      rw [take, play]
      rcases hnext : r.thread.next? with _ | c
      · exact .inl (ScriptThread.next?_eq_none_iff.1 hnext)
      · have hrest : r.thread.remaining ≠ [] := by simp [← ScriptThread.next?_eq_none_iff, hnext]
        have hlt := ScriptThread.steps_advance_lt hrest (r.reply c).value
        have hsteps := ih.resolve_left hrest
        refine .inr ?_
        rw [thread_say, List.count_append, List.count_singleton_self]
        omega
    | teardown =>
      rw [take, tear]
      split <;> simpa [List.count_append] using ih

theorem torn_takeAll (s : Session) (p : Platform) (commands : List Command)
    (steps : List ScriptStep) :
    ((start s p commands).takeAll steps).torn ≤ steps.count .teardown := by
  induction steps using List.reverseRecOn with
  | nil => exact Nat.le_refl 0
  | append_singleton steps step ih =>
    rw [takeAll_concat, List.count_append]
    set r := (start s p commands).takeAll steps
    cases step with
    | thread =>
      rw [take, play]
      split <;> exact ih
    | teardown =>
      rw [take, tear, List.count_singleton_self]
      split
      · exact Nat.le_add_right_of_le ih
      · exact Nat.succ_le_succ ih

/-- With nothing in between, the thread runs as `ScriptThread.run` says. -/
theorem run_eq_takeAll (r : ScriptRun) (n : Nat) (h : r.thread.steps ≤ n + 1) :
    r.thread.run (fun c s => (some (s.2.apply r.session.sink c).1.value,
        s.1 ++ (s.2.apply r.session.sink c).1.posted.toList, (s.2.apply r.session.sink c).2))
        (r.posted, r.platform)
      = (some (r.takeAll (.replicate n .thread)).thread.sent,
        (r.takeAll (.replicate n .thread)).posted,
        (r.takeAll (.replicate n .thread)).platform) := by
  induction n generalizing r with
  | zero =>
    have hrest : r.thread.remaining = [] := by
      rw [ScriptThread.steps] at h
      exact List.eq_nil_of_length_eq_zero (by omega)
    exact ScriptThread.run_of_nil hrest
  | succ n ih =>
    have hstep : r.takeAll (.replicate (n + 1) .thread)
        = r.play.takeAll (.replicate n .thread) := rfl
    rw [hstep, play]
    rcases hnext : r.thread.next? with _ | c
    · have hrest := ScriptThread.next?_eq_none_iff.1 hnext
      refine ih r ?_
      rw [ScriptThread.steps, hrest]
      split_ifs <;> simp
    · have hrest : r.thread.remaining ≠ [] := by simp [← ScriptThread.next?_eq_none_iff, hnext]
      have hlt := ScriptThread.steps_advance_lt hrest (r.reply c).value
      rw [ScriptThread.run_of_next hnext rfl, ← ih (r.say c) (by rw [thread_say]; omega),
        posted_say]
      rfl

/-- So the platform sends commands as a thread that nothing interrupts. -/
theorem send_eq_takeAll (s : Session) (p : Platform) (commands : List Command) :
    p.send s.sink true commands
      = (((start s p commands).takeAll (.replicate (2 * commands.length) .thread)).posted,
        ((start s p commands).takeAll (.replicate (2 * commands.length) .thread)).platform) :=
  congrArg Prod.snd ((start s p commands).run_eq_takeAll _ (Nat.le_refl _))

/-- What has become of a script after some steps. The thread is at its end if it has nothing to do
next. -/
structure Played (commands : List Command) (p : Platform) (steps : List ScriptStep)
    (r : ScriptRun) : Prop where
  inOrder : r.posted <+: commands
  sent : r.posted ++ r.dropped = commands.take r.thread.sent
  few : r.dropped.length ≤ 1
  count : r.thread.sent = r.posted.length + r.dropped.length
  /-- What is answered to those who wait for the thread. -/
  answer : r.thread.next? = none → ∀ {σ : Type} (receive : Command → σ → Option Int × σ) (s : σ),
    (r.thread.run receive s).1 = some (r.posted.length + r.dropped.length)
  counted : r.platform.metrics.afterClose = p.metrics.afterClose + r.dropped.length
  stopped : ∀ before call after, r.calls = before ++ call :: after → call.2.value = 1 →
    after = [] ∧ r.thread.next? = none
  ended : 2 * commands.length ≤ steps.count .thread → r.thread.next? = none
  whole : .teardown ∉ steps → r.thread.next? = none → r.posted = commands ∧ r.dropped = []

theorem Playing.played {commands : List Command} {s : Session} {p : Platform} {r : ScriptRun}
    {steps : List ScriptStep} (h : Playing commands s p r)
    (hsteps : r.thread.remaining = []
      ∨ r.thread.steps + steps.count .thread ≤ 2 * commands.length + 1)
    (htorn : r.torn ≤ steps.count .teardown) : Played commands p steps r where
  inOrder := (h.sent ▸ List.prefix_append _ _).trans (List.take_prefix _ _)
  sent := h.sent
  few := by
    rcases h.few with hnone | ⟨hone, -⟩
    · simp [hnone]
    · exact hone.le
  count := h.count
  answer hnext _ receive s := by
    rw [ScriptThread.run_of_nil (ScriptThread.next?_eq_none_iff.1 hnext), h.count]
  counted := h.counted
  stopped := by
    rw [ScriptThread.next?_eq_none_iff]
    exact h.stopped
  ended hlen := by
    rw [ScriptThread.next?_eq_none_iff]
    refine hsteps.elim id fun hle => List.eq_nil_of_length_eq_zero ?_
    rw [ScriptThread.steps] at hle
    omega
  whole hno hnext := by
    have ht : ¬ 0 < r.torn := by
      rw [List.count_eq_zero.2 hno] at htorn
      omega
    have hnone : r.dropped = [] := h.few.resolve_right fun hfew => ht hfew.2.1
    have hrest : commands.drop r.thread.sent = [] := by
      rw [← h.rest.resolve_right fun hr => ht hr.2]
      exact ScriptThread.next?_eq_none_iff.1 hnext
    have hsent := h.sent
    rw [hnone, List.append_nil, List.take_of_length_le (List.drop_eq_nil_iff.1 hrest)] at hsent
    exact ⟨hsent, hnone⟩

/-- What a loopback engine plays: its script, or the one that it makes up, and its fatal end. -/
def playlist (script : Option (List Command)) (locator : Locator) (ending : Option String) :
    List Command :=
  script.getD (Engine.defaultScript locator) ++ ending.toList.map (.of .fatalTermination)

/-- Only a script of its own can bring a question in. -/
theorem code_playlist {script : Option (List Command)} (locator : Locator) (ending : Option String)
    (hscript : ∀ c ∈ script.getD [], c.code ≠ Action.queryFinishing.code) :
    ∀ c ∈ playlist script locator ending, c.code ≠ Action.queryFinishing.code := by
  intro c hmem
  rcases List.mem_append.1 hmem with hmem | hmem
  · cases script with
    | none =>
      have hdefault : ∀ c ∈ Engine.defaultScript locator, c.code ≠ Action.queryFinishing.code := by
        simp [Engine.defaultScript, Command.of, Action.code]
      exact hdefault c hmem
    | some script => exact hscript c hmem
  · obtain ⟨message, -, rfl⟩ := List.mem_map.1 hmem
    exact (by decide : Action.fatalTermination.code ≠ Action.queryFinishing.code)

/-- However the steps of a script thread and of a teardown fall, the script stops cleanly. -/
theorem played_takeAll {c : Credentials} {locator : Locator} {script : Option (List Command)}
    {ending : Option String} {s : Session} {p : Platform}
    (hlocator : Locator.parse c.repository = .ok locator) (huser : c.username.isEmpty = false)
    (hscript : ∀ command ∈ script.getD [], command.code ≠ Action.queryFinishing.code)
    (hentry : p.sinks[s.sink]? = some {}) (steps : List ScriptStep) :
    (Engine.loopback script ending).opening true c
        = { answer := .accepted, commands := playlist script locator ending, courteous := true } ∧
      Played (playlist script locator ending) p steps
        ((start s p (playlist script locator ending)).takeAll steps) := by
  refine ⟨?_, ?_⟩
  · simp [Engine.opening, Engine.openLoopback, hlocator, huser, playlist]
  · exact (Playing.takeAll hentry (code_playlist locator ending hscript) steps).played
      (steps_takeAll ..) (torn_takeAll ..)

/-- A new session, with two titles to show and a fatal end. -/
def overture : ScriptRun :=
  start { sink := 0, layout := {}, params := .overlay {} } { sinks := [{}] }
    [.of .setTitle "a", .of .setTitle "b", .of .fatalTermination "end"]

/-- The session is torn down between the question for the second title and the title. -/
def interrupted : List ScriptStep :=
  [.thread, .thread, .thread, .teardown, .teardown, .teardown, .thread, .thread, .thread]

/-- The second title is dropped, and the fatal end is never sent. -/
theorem played_interrupted : Locator.parse "fly" = .ok { group := "fly" }
    ∧ overture.platform.sinks[overture.session.sink]? = some {}
    ∧ (overture.takeAll interrupted).posted = [.of .setTitle "a"]
    ∧ (overture.takeAll interrupted).dropped = [.of .setTitle "b"]
    ∧ (overture.takeAll interrupted).thread.next? = none
    ∧ (overture.takeAll interrupted).thread.sent = 2 := by
  have hlocator : Locator.parse "fly" = .ok { group := "fly" } := by decide +kernel
  have hplayed := @played_takeAll { username := "alice", repository := "fly" }
    { group := "fly" } (some [.of .setTitle "a", .of .setTitle "b"]) (some "end")
    overture.session overture.platform hlocator (by decide) (by decide +kernel) rfl interrupted
  have h : Played overture.thread.remaining overture.platform interrupted
    (overture.takeAll interrupted) := hplayed.2
  have hposted : (overture.takeAll interrupted).posted = [.of .setTitle "a"] := by
    decide +kernel
  have hdropped : (overture.takeAll interrupted).dropped = [.of .setTitle "b"] := by
    decide +kernel
  refine ⟨hlocator, rfl, hposted, hdropped, h.ended (by decide), h.count.trans ?_⟩
  rw [hposted, hdropped]
  rfl

end ScriptRun

end EngineShell
