import EngineShell.Proofs.Departures
import EngineShell.Proofs.FatalRecord
import EngineShell.Proofs.Forms

/-!
# The fatal screen, and restarts

Nothing that happens to a host takes the fatal screen away: while it is up every submission is
refused, no attempt starts, and the record to save is its message. A flow that starts from a
record shows what the record says and nothing that was stored, so that it saves the same record
again, and so does every flow after it (`restores_restarts`).
-/

namespace EngineShell

/-- What a restart finds: a machine, and a store with some content. -/
structure Restart where
  machine : Machine := {}
  store : PreferenceStore := .memory []
  disk : Disk := {}
  deriving DecidableEq, Repr

namespace LoginFlow

/-- A new flow that starts from the record which this one saves. -/
def restart (l : LoginFlow) (r : Restart) : LoginFlow :=
  ((LoginDesk.fresh r.machine r.store r.disk).take (.start (some l.save))).flow

/-- One restart after the other. -/
def restarts (l : LoginFlow) (rs : List Restart) : LoginFlow :=
  rs.foldl restart l

theorem restarts_concat (l : LoginFlow) (rs : List Restart) (r : Restart) :
    l.restarts (rs ++ [r]) = (l.restarts rs).restart r := by
  simp [restarts]

/-- A flow shows what a record says and saves it again. Under a fatal message the fields are
blank. -/
structure Restores (r : SavedRecord) (l : LoginFlow) : Prop where
  save : l.save = r
  fatal : ∀ message, r = .fatal message →
    l.board.shown.screen = .fatal message l.machine.environmentText
      ∧ l.board.shown.form.fields = {}
  login : ∀ fields, r = .login fields →
    l.board.shown.screen = .login ∧ l.board.shown.form.fields = fields

theorem restores_restart (l : LoginFlow) (r : Restart) : Restores l.save (l.restart r) := by
  unfold restart
  rcases hsave : l.save with fields | message
  · refine ⟨rfl, nofun, fun fields' h => ?_⟩
    cases h
    exact ⟨rfl, rfl⟩
  · refine ⟨rfl, fun message' h => ?_, nofun⟩
    cases h
    exact ⟨rfl, rfl⟩

theorem save_restarts (l : LoginFlow) (rs : List Restart) : (l.restarts rs).save = l.save := by
  induction rs using List.reverseRecOn with
  | nil => rfl
  | append_singleton rs r ih =>
    rw [restarts_concat]
    exact (restores_restart _ r).save.trans ih

/-- However often a flow is restarted, the last one shows what the record of the first says. -/
theorem restores_restarts (l : LoginFlow) (rs : List Restart) (r : Restart) :
    Restores l.save (l.restarts (rs ++ [r])) := by
  rw [← save_restarts l rs, restarts_concat]
  exact restores_restart (l.restarts rs) r

end LoginFlow

namespace HostLoop

variable {l : HostLoop} {message environment : String}

/-- A host under the fatal screen: it takes no submission, and saves the message. -/
structure Stuck (message environment : String) (l : HostLoop) : Prop where
  screen : l.state.shown.screen = .fatal message environment
  submits : ∀ c, l.state.login.submit c = .error .fatal
  ignores : ∀ c, l.state.onLoginClicked c = l.state
  save : l.state.login.save = .fatal message
  saved : l.state.onSaveState.saved = some (.fatal message)

theorem stuck_of_screen (h : l.state.shown.screen = .fatal message environment) :
    l.Stuck message environment := by
  have hmessage : l.state.login.board.shown.fatalMessage? = some message := by
    rw [Presentation.fatalMessage?, show l.state.login.board.shown.screen = _ from h]
  have hf := LoginFlow.isFatal_of_message hmessage
  have hsave : l.state.login.save = .fatal message := by rw [LoginFlow.save, hmessage]
  refine ⟨h, fun c => if_pos hf, fun c => ?_, hsave, ?_⟩
  · exact Host.onLoginClicked_of_not_takes (by simp [Host.takes, hf]) c
  · rw [Host.onSaveState, hsave]

theorem Stuck.not_takes (h : l.Stuck message environment) : l.state.takes = false := by
  rw [Host.takes_eq _ {}, h.submits]
  simp [Except.toOption]

theorem Stuck.takeAll (h : l.Stuck message environment) (steps : List HostStep) :
    (l.takeAll steps).Stuck message environment :=
  stuck_of_screen ((runs_takeAll l steps).screen h.screen)

/-- Once the fatal screen is up it stays, with its message and its environment, whatever happens:
no submission is taken and no attempt starts. A flow that is restarted from what any flow saves,
once or several times and over any store, shows that message or those fields again. -/
theorem stuck_takeAll {s : HostSetup} {l₀ : HostLoop} (h₀ : s.start = .ok l₀)
    (before later : List HostStep)
    (hs : (l₀.takeAll before).state.shown.screen = .fatal message environment) :
    ((l₀.takeAll before).takeAll later).Stuck message environment
      ∧ ((l₀.takeAll before).takeAll later).attempts = (l₀.takeAll before).attempts
      ∧ ∀ (flow : LoginFlow) (rs : List Restart) (r : Restart),
        LoginFlow.Restores flow.save (flow.restarts (rs ++ [r])) := by
  have hstuck : (l₀.takeAll before).Stuck message environment := stuck_of_screen hs
  refine ⟨hstuck.takeAll later, ?_, LoginFlow.restores_restarts⟩
  induction later using List.reverseRecOn with
  | nil => rfl
  | append_singleton later step ih =>
    obtain ⟨lost, hb, -⟩ := balanced_takeAll (balanced_start h₀) (before ++ later)
    rw [takeAll_append] at hb
    rw [takeAll_concat, hb.attempts_take (hstuck.takeAll later).not_takes step, ih]

/-- A run in which the icon is tapped eight times while an attempt is opening. -/
def swamped : List HostStep :=
  .handle .create :: .handle (.loginClicked {}) :: .enter 0
    :: List.replicate 8 (.handle (.iconTapped 0))

/-- What may follow: the attempt goes live and ends with a message of its own, and the form is
edited and submitted again. -/
def struggle : List HostStep :=
  [.answer 0 .accepted, .complete 0, .runTask, .command 0 (.of .fatalTermination "crash"), .runTask,
    .runTask, .handle (.fieldsEdited { username := "ann" }), .handle .create,
    .handle (.loginClicked { username := "ann" })]

/-- Such a run stays on the screen that the taps brought up and starts no second attempt, and a
flow that is restarted from it twice still saves the message of the taps. -/
theorem stuck_swamped : ((of {}).takeAll swamped).attempts = 1
    ∧ (((of {}).takeAll swamped).takeAll struggle).attempts = 1
      ∧ (((of {}).takeAll swamped).takeAll struggle).Stuck Taps.triggeredError
        (Machine.environmentText {})
      ∧ ((((of {}).takeAll swamped).takeAll struggle).state.login.restarts [{}, {}]).save
        = .fatal Taps.triggeredError := by
  have h₀ : HostSetup.start {} = .ok (of {}) := rfl
  have hs : ((of {}).takeAll swamped).state.shown.screen
      = .fatal Taps.triggeredError (Machine.environmentText {}) := by decide +kernel
  have hone : ((of {}).takeAll swamped).attempts = 1 := by decide +kernel
  obtain ⟨hstuck, hattempts, hrestores⟩ := stuck_takeAll h₀ swamped struggle hs
  exact ⟨hone, hattempts.trans hone, hstuck, (hrestores _ [{}] {}).save.trans hstuck.save⟩

end HostLoop

end EngineShell
