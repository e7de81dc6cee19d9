import EngineShell.Proofs.Login
import EngineShell.Storage.Preferences

/-!
# The lock of the form

An operation of a login flow locks the form, unlocks it, brings up the fatal screen, or changes
nothing but texts (`LoginFlow.Moves`). Whatever the order, the form is locked exactly while a
submission waits (`Presentation.Agrees`), and if nobody else writes the presentation its phase is
that of the submission (`Presentation.Undisturbed`). A submission that is taken waits until an
outcome comes (`pending_takeAll`), and meanwhile no other is taken. `locked_takeAll` says what this
means for every run of a flow over a store.
-/

namespace EngineShell

namespace Presentation

/-- The form is locked and shows what was submitted, while a session is opening. -/
def locked (p : Presentation) (c : Credentials) : Presentation :=
  { p with
    form := { p.form with
      submitEnabled := false
      progressVisible := true
      errorMessage := none
      fields := c }
    phase := .opening }

/-- The form is open and shows how the session has ended. An error moves the focus to the field
that it is about, if there is one. -/
def unlocked (p : Presentation) (error : Option String) : Presentation :=
  { p with
    form := { p.form with
      progressVisible := false
      submitEnabled := true
      focus := (error.bind fun m => Login.focusFor? m p.form.fields).or p.form.focus
      errorMessage := error }
    phase := .closed }

end Presentation

namespace LoginFlow

/-- One operation of a flow, by what it changes of the submission that waits and of the
presentation. -/
inductive Moves (l l' : LoginFlow) : Prop where
  | edited (fields : Credentials) (pending : l'.pending = l.pending)
      (shown : l'.board.shown = { l.board.shown with form := { l.board.shown.form with fields } })
  | locked (c : Credentials) (unfatal : l.isFatal = false) (pending : l'.pending = some c)
      (shown : l'.board.shown = l.board.shown.locked c)
  | unlocked (error : Option String) (unfatal : l.isFatal = false) (pending : l'.pending = none)
      (shown : l'.board.shown = l.board.shown.unlocked error)
  | raised (message environment : String) (unfatal : l.isFatal = false)
      (pending : l'.pending = l.pending ∨ l'.pending = none)
      (shown : l'.board.shown = { l.board.shown with
        screen := .fatal message environment
        form := { l.board.shown.form with progressVisible := false }
        phase := .closed })
  | late (fatal : l.isFatal = true) (pending : l'.pending = none)
      (shown : l'.board.shown = l.board.shown)

theorem Moves.refl (l : LoginFlow) : l.Moves l :=
  .edited l.board.shown.form.fields rfl rfl

variable {l l' : LoginFlow}

theorem moves_raise (low : LoginFlow) (hf : l.isFatal = false) (hb : low.board = l.board)
    (hp : low.pending = l.pending ∨ low.pending = none) (message : String) :
    l.Moves (low.showFatal message) := by
  have hlow : ¬ low.isFatal = true := by simpa [isFatal, hb] using hf
  refine .raised message low.machine.environmentText hf ?_ ?_
  · rwa [pending_showFatal]
  · rw [showFatal, if_neg hlow, shown_present, hb]

theorem moves_showFatal (l : LoginFlow) (message : String) : l.Moves (l.showFatal message) := by
  cases hf : l.isFatal
  · exact moves_raise l hf rfl (.inl rfl) message
  · rw [showFatal, if_pos hf]
    exact .refl l

theorem focus_showFatal (l : LoginFlow) (message : String) :
    (l.showFatal message).board.shown.form.focus = l.board.shown.form.focus := by
  unfold showFatal
  split_ifs <;> rfl

theorem moves_start (l : LoginFlow) (saved : Option SavedRecord) (stored : Prefill) :
    l.Moves (l.start saved stored) := by
  unfold start
  split
  · exact l.moves_showFatal _
  · exact .edited _ rfl rfl
  · split_ifs
    · exact .refl l
    · exact .edited _ rfl rfl

theorem moves_edit (l : LoginFlow) (fields : Credentials) : l.Moves (l.edit fields) :=
  .edited fields rfl rfl

theorem locked_submit {c : Credentials} (h : l.submit c = .ok l') :
    l'.board.shown = l.board.shown.locked c := by
  unfold submit at h
  split_ifs at h
  cases h
  rfl

theorem moves_submit {c : Credentials} (h : l.submit c = .ok l') : l.Moves l' := by
  obtain ⟨⟨hf, -⟩, hp, -⟩ := submit_eq_ok h
  exact .locked c hf hp (locked_submit h)

/-- An outcome that is not fatal opens the form again, with its message. -/
theorem unlocked_onOutcome (hf : l.isFatal = false) {o : Outcome} (ho : o.isFatal = false) :
    (l.onOutcome o).board.shown = l.board.shown.unlocked o.message? := by
  rw [onOutcome_of_not_fatal hf]
  cases o with
  | fatal message => cases ho
  | success | recoverable => rfl

theorem moves_onOutcome (l : LoginFlow) (o : Outcome) : l.Moves (l.onOutcome o) := by
  cases hf : l.isFatal
  · cases o with
    | success => exact .unlocked none hf (l.pending_onOutcome _) (unlocked_onOutcome hf rfl)
    | recoverable message =>
      exact .unlocked (some message) hf (l.pending_onOutcome _) (unlocked_onOutcome hf rfl)
    | fatal message =>
      rw [onOutcome_of_not_fatal hf]
      exact moves_raise ({ l with pending := none }.count .fatal) hf rfl (.inr rfl) message
  · rw [onOutcome_of_fatal hf]
    exact .late hf rfl rfl

theorem moves_tap (l : LoginFlow) (now : Nat) : l.Moves (l.tap now).2 := by
  rw [tap_snd]
  split_ifs
  · cases hf : l.isFatal
    · exact moves_raise ({ l with taps := {} }.count .fatal) hf rfl (.inl rfl) _
    · rw [showFatal, if_pos (by exact hf)]
      exact .edited l.board.shown.form.fields rfl rfl
  · exact .edited l.board.shown.form.fields rfl rfl

/-- No operation takes the fatal screen away or changes it. -/
theorem Moves.screen (h : l.Moves l') (hf : l.isFatal = true) :
    l'.board.shown.screen = l.board.shown.screen := by
  cases h with
  | edited _ _ hs => rw [hs]
  | late _ _ hs => rw [hs]
  | locked _ hf' | unlocked _ hf' | raised _ _ hf' => simp [hf] at hf'

end LoginFlow

namespace Presentation

/-- The form is locked, and shows progress and no error, exactly as long as a submission waits.
Under the fatal screen it shows no progress. -/
structure Agrees (p : Presentation) (waiting : Bool) : Prop where
  isOpen : p.isFatal = false → p.form.submitEnabled = !waiting
  progress : p.isFatal = false → p.form.progressVisible = waiting
  message : p.isFatal = false → waiting = true → p.form.errorMessage = none
  fatal : p.isFatal = true → p.form.progressVisible = false

/-- Besides, the phase is that of the submission. -/
structure Undisturbed (p : Presentation) (waiting : Bool) : Prop extends Agrees p waiting where
  opening : p.isFatal = false → waiting = true → p.phase = .opening
  closed : p.isFatal = true → p.phase = .closed

end Presentation

namespace LoginFlow.Moves

variable {l l' : LoginFlow}

theorem agrees (h : l.Moves l') (ha : l.board.shown.Agrees l.isPending) :
    l'.board.shown.Agrees l'.isPending := by
  cases h with
  | edited fields hp hs =>
    rw [isPending, hp, hs]
    exact ⟨ha.isOpen, ha.progress, ha.message, ha.fatal⟩
  | locked c hf hp hs =>
    rw [isPending, hp, hs]
    exact ⟨fun _ => rfl, fun _ => rfl, fun _ _ => rfl, fun hf' => absurd (hf.symm.trans hf') nofun⟩
  | unlocked error hf hp hs =>
    rw [isPending, hp, hs]
    exact ⟨fun _ => rfl, fun _ => rfl, nofun, fun _ => rfl⟩
  | raised message environment hf hp hs =>
    rw [hs]
    exact ⟨nofun, nofun, nofun, fun _ => rfl⟩
  | late hf hp hs =>
    have hnot : l.board.shown.isFatal ≠ false := by simpa [isFatal] using hf
    rw [hs]
    exact ⟨fun h => (hnot h).elim, fun h => (hnot h).elim, fun h => (hnot h).elim, ha.fatal⟩

theorem undisturbed (h : l.Moves l') (hu : l.board.shown.Undisturbed l.isPending) :
    l'.board.shown.Undisturbed l'.isPending := by
  have ha := h.agrees hu.toAgrees
  cases h with
  | edited fields hp hs =>
    rw [isPending, hp, hs] at ha ⊢
    exact ⟨ha, hu.opening, hu.closed⟩
  | locked c hf hp hs =>
    rw [hs] at ha ⊢
    exact ⟨ha, fun _ _ => rfl, fun hf' => absurd (hf.symm.trans hf') nofun⟩
  | unlocked error hf hp hs =>
    rw [isPending, hp, hs] at ha ⊢
    exact ⟨ha, nofun, fun _ => rfl⟩
  | raised message environment hf hp hs =>
    rw [hs] at ha ⊢
    exact ⟨ha, nofun, fun _ => rfl⟩
  | late hf hp hs =>
    rw [hs] at ha ⊢
    exact ⟨ha, fun h => absurd (hf.symm.trans h) nofun, hu.closed⟩

end LoginFlow.Moves

/-- What can be done with a login flow. Its store may get any other content meanwhile. -/
inductive LoginStep where
  | start (saved : Option SavedRecord)
  | edit (fields : Credentials)
  | submit (c : Credentials)
  | opened (c : Credentials)
  | outcome (o : Outcome)
  | tap (now : Nat)
  | save
  | restock (store : PreferenceStore) (disk : Disk)
  deriving DecidableEq, Repr

/-- Whether a step ends the wait of a submission. -/
def LoginStep.isOutcome : LoginStep → Bool
  | outcome _ => true
  | _ => false

/-- A login flow over the store that it fills the form from and keeps accepted credentials in. -/
structure LoginDesk where
  flow : LoginFlow := {}
  store : PreferenceStore := .memory []
  disk : Disk := {}
  deriving DecidableEq, Repr

namespace LoginDesk

/-- A new flow over a store. -/
def fresh (machine : Machine) (store : PreferenceStore) (disk : Disk) : LoginDesk where
  flow := { machine }
  store := store
  disk := disk

def shown (d : LoginDesk) : Presentation :=
  d.flow.board.shown

/-- Do one thing with the flow. A submission that is refused changes nothing, and neither does a
store that cannot be read or written. -/
def take (d : LoginDesk) : LoginStep → LoginDesk
  | .start saved =>
    { d with flow := d.flow.start saved ((d.store.prefill d.disk).toOption.getD {}) }
  | .edit fields => { d with flow := d.flow.edit fields }
  | .submit c =>
    match d.flow.submit c with
    | .ok flow => { d with flow }
    | .error _ => d
  | .opened c =>
    match d.store.persist d.disk c with
    | .ok (store, disk) => { d with store, disk }
    | .error _ => d
  | .outcome o => { d with flow := d.flow.onOutcome o }
  | .tap now => { d with flow := (d.flow.tap now).2 }
  | .save => d
  | .restock store disk => { d with store, disk }

def takeAll (d : LoginDesk) (steps : List LoginStep) : LoginDesk :=
  steps.foldl take d

/-- The message that a step puts on the fatal screen, if it brings one up. -/
def raised? (d : LoginDesk) : LoginStep → Option String
  | .start (some (.fatal message)) | .outcome (.fatal message) => some message
  | .tap now => if d.flow.taps.fires now then some Taps.triggeredError else none
  | _ => none

theorem takeAll_concat (d : LoginDesk) (steps : List LoginStep) (step : LoginStep) :
    d.takeAll (steps ++ [step]) = (d.takeAll steps).take step := by
  simp [takeAll]

theorem take_submit_of_error {d : LoginDesk} {c : Credentials} {e : SubmitError}
    (h : d.flow.submit c = .error e) : d.take (.submit c) = d := by
  simp only [take, h]

theorem take_submit_of_ok {d : LoginDesk} {c : Credentials} {flow : LoginFlow}
    (h : d.flow.submit c = .ok flow) : d.take (.submit c) = { d with flow } := by
  simp only [take, h]

/-- Keeping credentials is no matter of the form. -/
theorem flow_take_opened (d : LoginDesk) (c : Credentials) :
    (d.take (.opened c)).flow = d.flow := by
  simp only [take]
  split <;> rfl

theorem moves_take (d : LoginDesk) (step : LoginStep) : d.flow.Moves (d.take step).flow := by
  cases step with
  | start saved => exact d.flow.moves_start _ _
  | edit fields => exact d.flow.moves_edit fields
  | submit c =>
    rcases hs : d.flow.submit c with e | flow
    · rw [take_submit_of_error hs]
      exact .refl _
    · rw [take_submit_of_ok hs]
      exact LoginFlow.moves_submit hs
  | opened c =>
    rw [flow_take_opened]
    exact .refl _
  | outcome o => exact d.flow.moves_onOutcome o
  | tap now => exact d.flow.moves_tap now
  | save => exact .refl _
  | restock store disk => exact .refl _

/-- A submission that waits goes on waiting unless an outcome comes. -/
theorem pending_take {d : LoginDesk} {c : Credentials} (hp : d.flow.pending = some c)
    {step : LoginStep} (hstep : step.isOutcome = false) : (d.take step).flow.pending = some c := by
  cases step with
  | start saved => exact (d.flow.stays_start _ _).pending.trans hp
  | edit fields => exact hp
  | submit c' =>
    have hwaits : d.flow.isPending = true := by rw [LoginFlow.isPending, hp]; rfl
    rw [take_submit_of_error (LoginFlow.submit_of_pending hwaits c')]
    exact hp
  | opened c' => rwa [flow_take_opened]
  | outcome o => cases hstep
  | tap now => exact (d.flow.stays_tap now).pending.trans hp
  | save => exact hp
  | restock store disk => exact hp

theorem pending_takeAll {d : LoginDesk} {c : Credentials} (hp : d.flow.pending = some c)
    {steps : List LoginStep} (hsteps : ∀ step ∈ steps, step.isOutcome = false) :
    (d.takeAll steps).flow.pending = some c := by
  induction steps using List.reverseRecOn with
  | nil => exact hp
  | append_singleton steps step ih =>
    rw [takeAll_concat]
    exact pending_take (ih fun s hs => hsteps s (by simp [hs])) (hsteps step (by simp))

/-- The first message on the fatal screen is the one that stays. -/
theorem fatalMessage_take (d : LoginDesk) (step : LoginStep) :
    (d.take step).shown.fatalMessage? = d.shown.fatalMessage?.or (d.raised? step) := by
  cases step with
  | start saved =>
    rcases saved with _ | fields | message
    · simp only [take, shown, LoginFlow.start, raised?, Option.or_none]
      split_ifs <;> rfl
    · exact Option.or_none.symm
    · exact d.flow.fatalMessage_showFatal message
  | edit fields => exact Option.or_none.symm
  | submit c =>
    rw [show d.raised? (.submit c) = none from rfl, Option.or_none]
    rcases hs : d.flow.submit c with e | flow
    · rw [take_submit_of_error hs]
    · rw [take_submit_of_ok hs, shown, LoginFlow.locked_submit hs]
      rfl
  | opened c =>
    rw [show d.raised? (.opened c) = none from rfl, Option.or_none, shown, flow_take_opened, shown]
  | outcome o =>
    simp only [take, shown]
    cases hf : d.flow.isFatal
    · rw [LoginFlow.onOutcome_of_not_fatal hf]
      cases o with
      | fatal message => exact LoginFlow.fatalMessage_showFatal _ message
      | success | recoverable => exact Option.or_none.symm
    · rw [LoginFlow.onOutcome_of_fatal hf]
      obtain ⟨message, hmessage⟩ := Option.isSome_iff_exists.1 hf
      rw [hmessage, Option.some_or]
  | tap now => exact d.flow.fatalMessage_tap now
  | save => exact Option.or_none.symm
  | restock store disk => exact Option.or_none.symm

/-- Only a recoverable outcome that has a field to point to moves the focus. -/
theorem focus_take {d : LoginDesk} {step : LoginStep}
    (h : (d.take step).shown.form.focus ≠ d.shown.form.focus) :
    ∃ message field, step = .outcome (.recoverable message) ∧ d.flow.isFatal = false
      ∧ Login.focusFor? message d.shown.form.fields = some field
      ∧ (d.take step).shown.form.focus = some field := by
  cases step with
  | start saved =>
    refine (h ?_).elim
    simp only [take, shown, LoginFlow.start]
    split
    · exact d.flow.focus_showFatal _
    · rfl
    · split_ifs <;> rfl
  | edit fields => exact (h rfl).elim
  | submit c =>
    refine (h ?_).elim
    rcases hs : d.flow.submit c with e | flow
    · rw [take_submit_of_error hs]
    · rw [take_submit_of_ok hs, shown, LoginFlow.locked_submit hs]
      rfl
  | opened c => exact (h (by rw [shown, flow_take_opened, shown])).elim
  | outcome o =>
    simp only [take, shown] at h ⊢
    cases hf : d.flow.isFatal
    · cases o with
      | success =>
        rw [LoginFlow.unlocked_onOutcome hf rfl] at h
        exact (h rfl).elim
      | recoverable message =>
        rw [LoginFlow.unlocked_onOutcome hf rfl] at h ⊢
        rcases hfield : Login.focusFor? message d.flow.board.shown.form.fields with _ | field
        · simp [Presentation.unlocked, Outcome.message?, hfield] at h
        · exact ⟨message, field, rfl, rfl, hfield,
            by simp [Presentation.unlocked, Outcome.message?, hfield]⟩
      | fatal message =>
        rw [LoginFlow.onOutcome_of_not_fatal hf] at h
        exact (h (LoginFlow.focus_showFatal _ message)).elim
    · rw [LoginFlow.onOutcome_of_fatal hf] at h
      exact (h rfl).elim
  | tap now =>
    refine (h ?_).elim
    simp only [take, shown, LoginFlow.tap_snd]
    split_ifs
    · exact LoginFlow.focus_showFatal _ _
    · rfl
  | save => exact (h rfl).elim
  | restock store disk => exact (h rfl).elim

/-- What is true of a flow that nobody else writes the presentation of: on the login screen the
form is locked exactly while a submission waits, the fatal screen is at rest, and nothing is
changed by what is refused or comes too late. A submission is taken when none waits; it locks the
form, and an outcome opens it again. -/
structure Locked (d : LoginDesk) : Prop where
  waiting : d.flow.isFatal = false →
    (d.flow.isPending = true ↔ d.shown.form.submitEnabled = false)
      ∧ (d.shown.form.submitEnabled = false ↔ d.shown.form.progressVisible = true)
  opening : d.flow.isFatal = false → d.flow.isPending = true →
    d.shown.form.errorMessage = none ∧ d.shown.phase = .opening
  fatal : d.flow.isFatal = true →
    d.shown.form.progressVisible = false ∧ d.shown.phase = .closed
  submits : ∀ c, (∃ flow, d.flow.submit c = .ok flow)
    ↔ d.flow.isFatal = false ∧ d.flow.isPending = false
  refused : d.flow.isFatal = true ∨ d.flow.isPending = true → ∀ c, d.take (.submit c) = d
  late : d.flow.isFatal = true → ∀ o, (d.take (.outcome o)).flow.board = d.flow.board
  focus : ∀ step, (d.take step).shown.form.focus ≠ d.shown.form.focus →
    ∃ message field, step = .outcome (.recoverable message) ∧ d.flow.isFatal = false
      ∧ Login.focusFor? message d.shown.form.fields = some field
      ∧ (d.take step).shown.form.focus = some field
  /-- A submission that is taken waits, and the form is locked over it. -/
  locks : ∀ c flow, d.flow.submit c = .ok flow →
    flow.pending = some c ∧ flow.board.shown = d.shown.locked c
  /-- It waits until an outcome comes, and until then no other is taken. -/
  waits : ∀ c, d.flow.pending = some c → ∀ steps, (∀ step ∈ steps, step.isOutcome = false) →
    (d.takeAll steps).flow.pending = some c ∧ ∀ c', (d.takeAll steps).flow.submit c'
      = .error (if (d.takeAll steps).flow.isFatal then .fatal else .pending)
  /-- After an outcome nothing waits, and one that is not fatal opens the form again. -/
  ends : ∀ o, (d.take (.outcome o)).flow.pending = none
  unlocks : d.flow.isFatal = false → ∀ o, o.isFatal = false →
    (d.take (.outcome o)).shown = d.shown.unlocked o.message?
  /-- The fatal screen comes up with a fatal record, a fatal outcome or a burst of taps. -/
  raises : ∀ step,
    (d.take step).shown.fatalMessage? = d.shown.fatalMessage?.or (d.raised? step)

theorem undisturbed_takeAll (machine : Machine) (store : PreferenceStore) (disk : Disk)
    (steps : List LoginStep) : ((fresh machine store disk).takeAll steps).shown.Undisturbed
      ((fresh machine store disk).takeAll steps).flow.isPending := by
  induction steps using List.reverseRecOn with
  | nil => exact ⟨⟨fun _ => rfl, fun _ => rfl, nofun, fun _ => rfl⟩, nofun, nofun⟩
  | append_singleton steps step ih =>
    rw [takeAll_concat]
    exact (moves_take _ step).undisturbed ih

/-- A form that is undisturbed takes a submission exactly if none waits. -/
theorem submit_eq_ok_iff {d : LoginDesk} (hu : d.shown.Undisturbed d.flow.isPending)
    (c : Credentials) : (∃ flow, d.flow.submit c = .ok flow)
      ↔ d.flow.isFatal = false ∧ d.flow.isPending = false := by
  constructor
  · rintro ⟨flow, hs⟩
    obtain ⟨⟨hf, hp, -⟩, -⟩ := LoginFlow.submit_eq_ok hs
    exact ⟨hf, hp⟩
  · rintro ⟨hf, hp⟩
    have ho : d.flow.board.shown.form.submitEnabled = !d.flow.isPending := hu.isOpen hf
    rw [hp] at ho
    exact ⟨_, (if_neg (by simp [hf])).trans (if_neg (by simpa [hp] using ho))⟩

/-- Whatever is done with a new flow, over any store, its form is locked exactly while a
submission waits, until the fatal screen is up. -/
theorem locked_takeAll (machine : Machine) (store : PreferenceStore) (disk : Disk)
    (steps : List LoginStep) : ((fresh machine store disk).takeAll steps).Locked := by
  have hu := undisturbed_takeAll machine store disk steps
  generalize (fresh machine store disk).takeAll steps = d at hu
  refine
    { waiting := fun hf => ?_
      opening := fun hf hp => ⟨hu.message hf hp, hu.opening hf hp⟩
      fatal := fun hf => ⟨hu.fatal hf, hu.closed hf⟩
      submits := submit_eq_ok_iff hu
      refused := fun h c => ?_
      late := fun hf o => ?_
      focus := fun step h => focus_take h
      locks := fun c flow h => ⟨(LoginFlow.submit_eq_ok h).2.1, LoginFlow.locked_submit h⟩
      waits := fun c hp steps hsteps => ?_
      ends := fun o => d.flow.pending_onOutcome o
      unlocks := fun hf o ho => LoginFlow.unlocked_onOutcome hf ho
      raises := d.fatalMessage_take }
  · rw [hu.isOpen hf, hu.progress hf]
    cases d.flow.isPending <;> simp
  · rcases hs : d.flow.submit c with e | flow
    · rw [take_submit_of_error hs]
    · obtain ⟨hf, hp⟩ := (submit_eq_ok_iff hu c).1 ⟨flow, hs⟩
      simp [hf, hp] at h
  · rw [take, LoginFlow.onOutcome_of_fatal hf]
  · have hwaits := pending_takeAll hp hsteps
    refine ⟨hwaits, fun c' => LoginFlow.submit_of_pending ?_ c'⟩
    rw [LoginFlow.isPending, hwaits]
    rfl

/-- A new flow over an empty store after some steps. -/
def begun (steps : List LoginStep) : LoginDesk :=
  (fresh {} (.memory []) {}).takeAll steps

def ann : Credentials := { username := "ann", secret := "pw", repository := "fly" }

/-- A first attempt that fails, with texts that were edited meanwhile. -/
def failed : List LoginStep :=
  [.start none, .submit ann, .edit { ann with secret := "wp" },
    .outcome (.recoverable "Wrong password")]

/-- Then a second attempt is under way. -/
def retried : List LoginStep :=
  failed ++ [.submit ann]

/-- Eight taps in a row. -/
def burst : List LoginStep :=
  [.tap 1, .tap 2, .tap 3, .tap 4, .tap 5, .tap 6, .tap 7, .tap 8]

/-- The form is open again after the first attempt and takes a second one. That one waits through
the burst, which brings up the fatal screen; then its outcome is not shown. -/
theorem locked_retried :
    (begun failed).shown.form = { fields := { ann with secret := "wp" }
                                  errorMessage := some "Wrong password"
                                  focus := some .secret }
      ∧ (∃ flow, (begun failed).flow.submit ann = .ok flow
        ∧ flow.pending = some ann ∧ flow.board.shown = (begun failed).shown.locked ann)
      ∧ ((begun retried).takeAll burst).flow.pending = some ann
      ∧ (∀ c, (begun (retried ++ burst)).take (.submit c) = begun (retried ++ burst))
      ∧ ∀ o, ((begun (retried ++ burst)).take (.outcome o)).shown.fatalMessage?
        = some Taps.triggeredError := by
  have hfailed : (begun failed).Locked := locked_takeAll {} (.memory []) {} failed
  have hretried : (begun retried).Locked := locked_takeAll {} (.memory []) {} retried
  have hburst : (begun (retried ++ burst)).Locked :=
    locked_takeAll {} (.memory []) {} (retried ++ burst)
  obtain ⟨flow, hflow⟩ := (hfailed.submits ann).2 (by decide +kernel)
  refine ⟨by decide +kernel, ⟨flow, hflow, hfailed.locks ann flow hflow⟩,
    (hretried.waits ann (by decide +kernel) burst (by decide)).1,
    hburst.refused (.inl (by decide +kernel)), fun o => ?_⟩
  rw [shown, hburst.late (by decide +kernel) o]
  decide +kernel

end LoginDesk

end EngineShell
