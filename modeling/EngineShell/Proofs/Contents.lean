import EngineShell.Overlay.Dispatch
import Mathlib.Tactic

/-!
# What a list of commands leaves on the widgets

A widget shows what the last commands addressed to it tell it, and nothing else has a say in it.
`Widgets.after` reads this off a list of commands without carrying them out; `determined_play` says
that carrying them out one after the other comes to the same, under either policy.
-/

namespace EngineShell

theorem Action.code_injective : Function.Injective Action.code := by
  intro a b h
  have := Action.ofCode_code a
  rw [h, Action.ofCode_code] at this
  exact (Option.some.inj this).symm

namespace Command

variable {α : Type} {c : Command}

theorem code_eq_iff {a : Action} (h : c.action? = some a) (b : Action) :
    c.code = b.code ↔ a = b := by
  rw [← Action.code_of_ofCode h]
  exact Action.code_injective.eq_iff

theorem code_ne (h : c.action? = none) (a : Action) : c.code ≠ a.code := by
  intro hc
  rw [action?, hc, Action.ofCode_code] at h
  cases h

/-- What the last command tells that tells something. -/
def last (tell : Command → Option α) (cs : List Command) : Option α :=
  (cs.filterMap tell).getLast?

variable {tell : Command → Option α}

theorem last_append (cs cs' : List Command) :
    last tell (cs ++ cs') = (last tell cs').or (last tell cs) := by
  rw [last, List.filterMap_append, List.getLast?_append, last, last]

theorem last_singleton (c : Command) : last tell [c] = tell c := by
  rw [last, List.filterMap_cons]
  cases tell c <;> rfl

theorem last_filter {kind : Command → Bool} (h : ∀ c, kind c = false → tell c = none)
    (cs : List Command) : last tell (cs.filter kind) = last tell cs := by
  rw [last, last, List.filterMap_filter]
  congr 1
  refine List.filterMap_congr fun c _ => ?_
  cases hc : kind c
  · rw [h c hc]
    rfl
  · rfl

def text? (a : Action) (c : Command) : Option String :=
  if c.code = a.code then some c.argument else none

/-- The well-formed number that a command carries, if it has the code of an action. -/
def number? (a : Action) (c : Command) : Option Int :=
  if c.code = a.code then Text.readInt32 c.argument.toList else none

def modelShown? (c : Command) : Option Bool :=
  if c.code = Action.showModelProgress.code then some true
  else if c.code = Action.hideModelProgress.code then some false
  else none

def imageShown? (c : Command) : Option Bool :=
  if (c.number? .startImageProgress).isSome then some true
  else if c.number? .updateImageProgress = some Progress.done then some false
  else none

/-- The value that a command gives the image progress. -/
def imageValue? (c : Command) : Option Int :=
  ((c.number? .startImageProgress).filter (· ≠ Progress.unknownAmount)).or
    ((c.number? .updateImageProgress).filter (· ≠ Progress.done))

/-- The widget that a command is addressed to. -/
def target? (c : Command) : Option Widget :=
  c.action?.bind fun
    | .setTitle => some .repoTitle
    | .showOpeningProgress => some .openingProgress
    | .showModelProgress | .hideModelProgress => some .modelProgress
    | .startImageProgress | .updateImageProgress => some .imageProgress
    | .setSecondaryValue => some .secondaryValue
    | .setPrimaryValue => some .primaryValue
    | .fatalTermination | .recoverableTermination | .queryFinishing => none

end Command

namespace Progress

def afterOpening (cs : List Command) (p : Progress) : Progress :=
  { p with visible := p.visible || cs.any (·.code = Action.showOpeningProgress.code) }

def afterModel (cs : List Command) (p : Progress) : Progress :=
  { p with visible := (Command.last Command.modelShown? cs).getD p.visible }

def afterImage (cs : List Command) (p : Progress) : Progress where
  visible := (Command.last Command.imageShown? cs).getD p.visible
  indeterminate := ((Command.last (Command.number? .startImageProgress) cs).map
    (· == unknownAmount)).getD p.indeterminate
  max := if cs.any (fun c => (c.number? .startImageProgress).isSome) then imageScale else p.max
  value := (Command.last Command.imageValue? cs).getD p.value

end Progress

namespace Widgets

def textAfter (a : Action) (cs : List Command) (text : String) : String :=
  (Command.last (Command.text? a) cs).getD text

/-- The widgets that a list of commands leaves. -/
def after (w : Widgets) (cs : List Command) : Widgets where
  repoTitle := w.repoTitle.map (textAfter .setTitle cs)
  opening := w.opening.map (Progress.afterOpening cs)
  model := w.model.map (Progress.afterModel cs)
  image := w.image.map (Progress.afterImage cs)
  primary := w.primary.map (textAfter .setPrimaryValue cs)
  secondary := w.secondary.map (textAfter .setSecondaryValue cs)

/-- The widgets once a command is carried out, with the host finishing or not. One that the policy
does not tolerate leaves them alone. -/
def advance (policy : Policy) (w : Widgets) (step : Bool × Command) : Widgets :=
  match w.apply policy step.1 step.2 with
  | .ok (_, w) => w
  | .error _ => w

def play (policy : Policy) (w : Widgets) (history : List (Bool × Command)) : Widgets :=
  history.foldl (advance policy) w

def has (w : Widgets) : Widget → Bool
  | .repoTitle => w.repoTitle.isSome
  | .openingProgress => w.opening.isSome
  | .modelProgress => w.model.isSome
  | .imageProgress => w.image.isSome
  | .primaryValue => w.primary.isSome
  | .secondaryValue => w.secondary.isSome

/-- One of the widgets, without the others. -/
def only (w : Widgets) : Widget → Widgets
  | .repoTitle => { repoTitle := w.repoTitle }
  | .openingProgress => { opening := w.opening }
  | .modelProgress => { model := w.model }
  | .imageProgress => { image := w.image }
  | .primaryValue => { primary := w.primary }
  | .secondaryValue => { secondary := w.secondary }

theorem getD_or {α : Type} (a b : Option α) (x : α) : (a.or b).getD x = a.getD (b.getD x) := by
  cases a <;> rfl

theorem textAfter_append (a : Action) (cs cs' : List Command) :
    textAfter a (cs ++ cs') = textAfter a cs' ∘ textAfter a cs := by
  funext text
  simp only [textAfter, Command.last_append, getD_or, Function.comp_apply]

theorem afterImage_append (cs cs' : List Command) :
    Progress.afterImage (cs ++ cs') = Progress.afterImage cs' ∘ Progress.afterImage cs := by
  funext p
  simp only [Progress.afterImage, Command.last_append, getD_or, Option.map_or, List.any_append,
    Function.comp_apply, Progress.mk.injEq, true_and, and_true]
  cases cs'.any fun c => (c.number? .startImageProgress).isSome <;> simp

theorem after_append (w : Widgets) (cs cs' : List Command) :
    w.after (cs ++ cs') = (w.after cs).after cs' := by
  have hopening : Progress.afterOpening (cs ++ cs')
      = Progress.afterOpening cs' ∘ Progress.afterOpening cs := by
    funext p
    simp only [Progress.afterOpening, List.any_append, Bool.or_assoc, Function.comp_apply]
  have hmodel : Progress.afterModel (cs ++ cs')
      = Progress.afterModel cs' ∘ Progress.afterModel cs := by
    funext p
    simp only [Progress.afterModel, Command.last_append, getD_or, Function.comp_apply]
  simp only [after, textAfter_append, hopening, hmodel, afterImage_append, Option.map_map]

theorem after_nil (w : Widgets) : w.after [] = w := by
  have htext : ∀ a, textAfter a [] = id := fun _ => rfl
  have hopening : Progress.afterOpening [] = id := by
    funext p
    simp [Progress.afterOpening]
  have hmodel : Progress.afterModel [] = id := rfl
  have himage : Progress.afterImage [] = id := rfl
  simp only [after, htext, hopening, hmodel, himage, Option.map_id_fun, id]

section Single

variable (c : Command)

theorem textAfter_singleton (a : Action) :
    textAfter a [c] = if c.code = a.code then fun _ => c.argument else id := by
  funext text
  rw [textAfter, Command.last_singleton, Command.text?]
  split_ifs <;> rfl

theorem afterOpening_singleton : Progress.afterOpening [c]
    = if c.code = Action.showOpeningProgress.code then ({ · with visible := true }) else id := by
  funext p
  by_cases h : c.code = Action.showOpeningProgress.code <;> simp [Progress.afterOpening, h]

theorem afterModel_singleton : Progress.afterModel [c]
    = if c.code = Action.showModelProgress.code then ({ · with visible := true })
      else if c.code = Action.hideModelProgress.code then ({ · with visible := false })
      else id := by
  funext p
  rw [Progress.afterModel, Command.last_singleton, Command.modelShown?]
  split_ifs <;> rfl

theorem afterImage_singleton : Progress.afterImage [c]
    = match c.number? .startImageProgress, c.number? .updateImageProgress with
      | some value, _ => startImage value
      | none, some value => updateImage value
      | none, none => id := by
  funext p
  simp only [Progress.afterImage, Command.last_singleton, Command.imageShown?,
    Command.imageValue?, List.any_cons, List.any_nil, Bool.or_false]
  rcases hstart : c.number? .startImageProgress with _ | value
  · rcases c.number? .updateImageProgress with _ | value
    · rfl
    · by_cases h : value = Progress.done <;> simp [updateImage, h, Option.filter]
  · -- a command has one code only
    have hupdate : c.number? .updateImageProgress = none := by
      unfold Command.number? at hstart ⊢
      split_ifs at hstart with hc
      rw [hc, if_neg (by decide)]
    rw [hupdate]
    by_cases h : value = Progress.unknownAmount <;> simp [startImage, h, Option.filter]

end Single

theorem advance_eq_after (policy : Policy) (w : Widgets) (step : Bool × Command) :
    w.advance policy step = w.after [step.2] := by
  obtain ⟨finishing, c⟩ := step
  obtain ⟨title, opening, model, image, primary, secondary⟩ := w
  simp only [advance, apply, after, textAfter_singleton, afterOpening_singleton,
    afterModel_singleton, afterImage_singleton, Command.number?]
  rcases ha : c.action? with _ | action
  · have hne := Command.code_ne ha
    simp [hne]
  · have hc := Command.code_eq_iff ha
    cases action with
    | setTitle =>
      cases title <;> cases policy <;> simp [hc, perform, require, Policy.settle, Except.map]
    | showOpeningProgress =>
      cases opening <;> cases policy <;> simp [hc, perform, require, Policy.settle, Except.map]
    | showModelProgress | hideModelProgress =>
      cases model <;> cases policy <;> simp [hc, perform, require, Policy.settle, Except.map]
    | startImageProgress | updateImageProgress =>
      simp only [perform, readValue]
      rcases Text.readInt32 c.argument.toList with _ | value
      · cases policy <;> simp [hc, bind, Except.bind, Policy.settle, Except.map]
      · cases image <;> cases policy <;>
          simp [hc, bind, Except.bind, require, Policy.settle, Except.map]
    | setSecondaryValue => cases secondary <;> simp [hc, perform, offer]
    | setPrimaryValue => cases primary <;> simp [hc, perform, offer]
    | fatalTermination | recoverableTermination | queryFinishing => simp [hc, perform]

theorem play_concat (policy : Policy) (w : Widgets) (history : List (Bool × Command))
    (step : Bool × Command) :
    w.play policy (history ++ [step]) = (w.play policy history).advance policy step := by
  rw [play, play, List.foldl_append, List.foldl_cons, List.foldl_nil]

theorem play_eq_after (policy : Policy) (w : Widgets) (history : List (Bool × Command)) :
    w.play policy history = w.after (history.map (·.2)) := by
  induction history using List.reverseRecOn with
  | nil => exact w.after_nil.symm
  | append_singleton history step ih =>
    rw [play_concat, ih, advance_eq_after, ← after_append, List.map_append, List.map_singleton]

theorem has_after (w : Widgets) (cs : List Command) (widget : Widget) :
    (w.after cs).has widget = w.has widget := by
  cases widget <;> exact Option.isSome_map

section Only

variable {α : Type} {widget : Widget}

theorem code_ne_of_target {c : Command} (h : c.target? ≠ some widget) {a : Action}
    (ha : (Command.of a "").target? = some widget) : c.code ≠ a.code := by
  intro hc
  apply h
  rw [← ha, Command.target?, Command.target?, Command.action?, hc]
  rfl

theorem number?_of_target {c : Command} (h : c.target? ≠ some widget) {a : Action}
    (ha : (Command.of a "").target? = some widget) : c.number? a = none :=
  if_neg (code_ne_of_target h ha)

theorem last_filter_target {tell : Command → Option α}
    (h : ∀ c, c.target? ≠ some widget → tell c = none) (cs : List Command) :
    Command.last tell (cs.filter fun c => c.target? = some widget) = Command.last tell cs :=
  Command.last_filter (fun c hc => h c (of_decide_eq_false hc)) cs

theorem any_filter_target {p : Command → Bool} (h : ∀ c, p c = true → c.target? = some widget)
    (cs : List Command) :
    (cs.filter fun c => c.target? = some widget).any p = cs.any p := by
  rw [List.any_filter]
  congr 1
  funext c
  cases hp : p c
  · exact Bool.and_false _
  · rw [decide_eq_true (h c hp), Bool.and_true]

theorem textAfter_filter {a : Action} (ha : (Command.of a "").target? = some widget)
    (cs : List Command) :
    textAfter a (cs.filter fun c => c.target? = some widget) = textAfter a cs := by
  funext text
  rw [textAfter, last_filter_target, textAfter]
  intro c hc
  rw [Command.text?, if_neg (code_ne_of_target hc ha)]

theorem afterOpening_filter (cs : List Command) :
    Progress.afterOpening (cs.filter fun c => c.target? = some .openingProgress)
      = Progress.afterOpening cs := by
  funext p
  rw [Progress.afterOpening, any_filter_target, Progress.afterOpening]
  intro c hc
  by_contra h
  exact code_ne_of_target (a := .showOpeningProgress) h rfl (of_decide_eq_true hc)

theorem afterModel_filter (cs : List Command) :
    Progress.afterModel (cs.filter fun c => c.target? = some .modelProgress)
      = Progress.afterModel cs := by
  funext p
  rw [Progress.afterModel, last_filter_target, Progress.afterModel]
  intro c hc
  rw [Command.modelShown?, if_neg (code_ne_of_target hc rfl), if_neg (code_ne_of_target hc rfl)]

theorem afterImage_filter (cs : List Command) :
    Progress.afterImage (cs.filter fun c => c.target? = some .imageProgress)
      = Progress.afterImage cs := by
  have hstart : ∀ c : Command, c.target? ≠ some .imageProgress →
      c.number? .startImageProgress = none := fun c hc => number?_of_target hc rfl
  have hupdate : ∀ c : Command, c.target? ≠ some .imageProgress →
      c.number? .updateImageProgress = none := fun c hc => number?_of_target hc rfl
  funext p
  rw [Progress.afterImage, last_filter_target hstart, last_filter_target, last_filter_target,
    any_filter_target, Progress.afterImage]
  · intro c hc
    by_contra h
    rw [hstart c h] at hc
    cases hc
  · intro c hc
    rw [Command.imageValue?, hstart c hc, hupdate c hc]
    rfl
  · intro c hc
    rw [Command.imageShown?, hstart c hc, hupdate c hc]
    rfl

theorem only_after (w : Widgets) (cs : List Command) (widget : Widget) :
    (w.after cs).only widget
      = (w.only widget).after (cs.filter fun c => c.target? = some widget) := by
  cases widget with
  | repoTitle =>
    simp only [after, only, Option.map_none, textAfter_filter (a := .setTitle) rfl]
  | openingProgress => simp only [after, only, Option.map_none, afterOpening_filter]
  | modelProgress => simp only [after, only, Option.map_none, afterModel_filter]
  | imageProgress => simp only [after, only, Option.map_none, afterImage_filter]
  | primaryValue =>
    simp only [after, only, Option.map_none, textAfter_filter (a := .setPrimaryValue) rfl]
  | secondaryValue =>
    simp only [after, only, Option.map_none, textAfter_filter (a := .setSecondaryValue) rfl]

end Only

/-- What a history of commands leaves is read off the list of them, with the host finishing or not
at each. The widgets that are there stay there and no other comes up, and each one is settled by the
commands addressed to it. -/
theorem determined_play (policy : Policy) (w : Widgets) (history : List (Bool × Command)) :
    w.play policy history = w.after (history.map (·.2))
      ∧ ∀ widget, (w.play policy history).has widget = w.has widget
        ∧ (w.play policy history).only widget
          = (w.only widget).play policy
            (history.filter fun step => step.2.target? = some widget) := by
  have hplay := w.play_eq_after policy history
  refine ⟨hplay, fun widget => ⟨?_, ?_⟩⟩
  · rw [hplay, has_after]
  · rw [hplay, only_after, play_eq_after, List.filter_map]
    rfl

end Widgets

end EngineShell
