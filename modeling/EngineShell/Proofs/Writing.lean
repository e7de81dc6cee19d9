import EngineShell.Overlay.Dispatch
import Mathlib.Tactic

/-!
# Writing on the widgets in place

`Widgets.apply` returns the widgets that a command leaves, and so it could not tell if a command
wrote on some of them before it broke off. `Widgets.write` carries a command out one write at a
time, and what is written stays. A command that breaks off has written nothing (`write_eq`).
-/

namespace EngineShell

/-- Writing on the widgets, which may break off. -/
abbrev Writing := ExceptT Violation (StateM Widgets)

namespace Writing

def demand {α : Type} (action : Action) (widget : Widget) (content : Widgets → Option α) :
    Writing Unit := do
  if (content (← get)).isNone then throw (.missingWidget action.code widget)

def title (text : String) : Writing Unit :=
  modify fun w => { w with repoTitle := w.repoTitle.map fun _ => text }

def primary (text : String) : Writing Unit :=
  modify fun w => { w with primary := w.primary.map fun _ => text }

def secondary (text : String) : Writing Unit :=
  modify fun w => { w with secondary := w.secondary.map fun _ => text }

def opening (change : Progress → Progress) : Writing Unit :=
  modify fun w => { w with opening := w.opening.map change }

def model (change : Progress → Progress) : Writing Unit :=
  modify fun w => { w with model := w.model.map change }

def image (change : Progress → Progress) : Writing Unit :=
  modify fun w => { w with image := w.image.map change }

/-- What an action writes, in the order in which it does. -/
def effect (finishing : Bool) (action : Action) (argument : String) : Writing Dispatch :=
  match action with
  | .fatalTermination => return .terminate (.fatal argument)
  | .recoverableTermination => return .terminate (.recoverable argument)
  | .queryFinishing => return .query (flag finishing)
  | .setTitle => do
    demand action .repoTitle (·.repoTitle)
    title argument
    return .applied
  | .showOpeningProgress => do
    demand action .openingProgress (·.opening)
    opening ({ · with visible := true })
    return .applied
  | .showModelProgress => do
    demand action .modelProgress (·.model)
    model ({ · with visible := true })
    return .applied
  | .hideModelProgress => do
    demand action .modelProgress (·.model)
    model ({ · with visible := false })
    return .applied
  | .startImageProgress => do
    let value ← MonadExcept.ofExcept (Widgets.readValue action argument)
    demand action .imageProgress (·.image)
    image ({ · with max := Progress.imageScale })
    image ({ · with visible := true })
    if value = Progress.unknownAmount then
      image ({ · with indeterminate := true })
    else
      image ({ · with indeterminate := false })
      image ({ · with value })
    return .applied
  | .updateImageProgress => do
    let value ← MonadExcept.ofExcept (Widgets.readValue action argument)
    demand action .imageProgress (·.image)
    if value = Progress.done then
      image ({ · with visible := false })
    else
      image ({ · with value })
    return .applied
  | .setSecondaryValue => do
    if (← get).secondary.isNone then return .ignored
    secondary argument
    return .applied
  | .setPrimaryValue => do
    if (← get).primary.isNone then return .ignored
    primary argument
    return .applied

def carryOut (policy : Policy) (finishing : Bool) (c : Command) : Writing Dispatch :=
  match c.action? with
  | none => return .ignored
  | some action =>
    tryCatch (effect finishing action c.argument) fun v => MonadExcept.ofExcept (policy.settle v)

/-- What is written stays for the one who catches the violation. -/
theorem run_tryCatch {α : Type} (x : Writing α) (handle : Violation → Writing α) (w : Widgets) :
    (tryCatch x handle).run.run w = match x.run.run w with
      | (.ok a, w') => (.ok a, w')
      | (.error v, w') => (handle v).run.run w' := by
  simp only [tryCatch, tryCatchThe, MonadExceptOf.tryCatch, ExceptT.tryCatch, ExceptT.run,
    ExceptT.mk, bind, StateT.bind, StateT.run]
  rcases x w with ⟨v | a, w'⟩ <;> rfl

end Writing

namespace Widgets

/-- What a command comes to that writes in place, and the widgets after it. -/
def write (policy : Policy) (finishing : Bool) (w : Widgets) (c : Command) :
    Except Violation Dispatch × Widgets :=
  (Writing.carryOut policy finishing c).run.run w

theorem write_perform (finishing : Bool) (w : Widgets) (action : Action) (argument : String) :
    (Writing.effect finishing action argument).run.run w
      = match w.perform finishing action argument with
        | .ok (d, w') => (.ok d, w')
        | .error v => (.error v, w) := by
  have hread : ∀ value : Int, MonadExcept.ofExcept (.ok value) = (pure value : Writing Int) :=
    fun _ => rfl
  have hbind : ∀ (value : Int) (f : Int → Except Violation (Dispatch × Widgets)),
      (Except.ok value >>= f) = f value := fun _ _ => rfl
  obtain ⟨title, opening, model, image, primary, secondary⟩ := w
  cases action with
  | fatalTermination | recoverableTermination | queryFinishing => rfl
  | setTitle => cases title <;> rfl
  | showOpeningProgress => cases opening <;> rfl
  | showModelProgress | hideModelProgress => cases model <;> rfl
  | setSecondaryValue => cases secondary <;> rfl
  | setPrimaryValue => cases primary <;> rfl
  | startImageProgress =>
    simp only [Writing.effect, perform]
    rcases readValue .startImageProgress argument with v | value
    · rfl
    simp only [hread, pure_bind, hbind]
    rcases image with _ | p
    · rfl
    · simp only [require, startImage]
      split_ifs <;> rfl
  | updateImageProgress =>
    simp only [Writing.effect, perform]
    rcases readValue .updateImageProgress argument with v | value
    · rfl
    simp only [hread, pure_bind, hbind]
    rcases image with _ | p
    · rfl
    · simp only [require, updateImage]
      split_ifs <;> rfl

/-- A command that writes in place leaves the widgets that `apply` returns, and one that breaks off
leaves them as they were. -/
theorem write_eq (policy : Policy) (finishing : Bool) (w : Widgets) (c : Command) :
    w.write policy finishing c = match w.apply policy finishing c with
      | .ok (d, w') => (.ok d, w')
      | .error v => (.error v, w) := by
  rw [write, Writing.carryOut, apply]
  rcases c.action? with _ | action
  · rfl
  · simp only [Writing.run_tryCatch, write_perform]
    rcases w.perform finishing action c.argument with v | ⟨d, w'⟩
    · -- the answer to the violation writes nothing either
      dsimp only
      rcases policy.settle v with v | d <;> rfl
    · rfl

end Widgets

end EngineShell
