import EngineShell.Presentation.Basic

/-!
# Changes

What observers hear when the presentation changes: one change for each part that differs, in a
fixed order (`changes`). An absent widget is reported like a fresh one.
-/

namespace EngineShell

/-- A progress bar of the form or the overlay. -/
inductive Bar where
  | login
  | opening
  | model
  | image
  deriving DecidableEq, Repr

def Bar.name : Bar → String
  | login => "login"
  | opening => "opening"
  | model => "model"
  | image => "image"

/-- A part of the presentation got a new content. -/
inductive Change where
  | screen (fatal : Bool)
  | fields
  | submitEnabled (enabled : Bool)
  | progress (bar : Bar) (visible indeterminate : Bool) (value : Int)
  | errorMessage (message : Option String)
  | focus (field : Option Field)
  | title (text : String)
  | value (primary : Bool) (text : String)
  | phase (phase : Phase)
  | overlayAttached (attached : Bool)
  deriving DecidableEq, Repr

namespace Change

/-- The change of the progress bar of the form. -/
def ofLogin (visible : Bool) : Change :=
  .progress .login visible true 0

def ofBar (bar : Bar) (p : Option Progress) : Change :=
  let p := p.getD {}
  .progress bar p.visible p.indeterminate p.value

end Change

namespace Presentation

/-- A change if two contents of a part differ. -/
def ifDiffers {α : Type} [DecidableEq α] (before after : α) (change : α → Change) : List Change :=
  if before = after then [] else [change after]

/-- What differs between two presentations. -/
def changes (before after : Presentation) : List Change :=
  ifDiffers before.screen after.screen (fun _ => .screen after.isFatal) ++
  ifDiffers before.form.fields after.form.fields (fun _ => .fields) ++
  ifDiffers before.form.submitEnabled after.form.submitEnabled .submitEnabled ++
  ifDiffers before.form.progressVisible after.form.progressVisible .ofLogin ++
  ifDiffers before.form.errorMessage after.form.errorMessage .errorMessage ++
  ifDiffers before.form.focus after.form.focus .focus ++
  ifDiffers before.overlay.repoTitle after.overlay.repoTitle (fun t => .title (t.getD "")) ++
  ifDiffers before.overlay.opening after.overlay.opening (.ofBar .opening) ++
  ifDiffers before.overlay.model after.overlay.model (.ofBar .model) ++
  ifDiffers before.overlay.image after.overlay.image (.ofBar .image) ++
  ifDiffers before.overlay.primary after.overlay.primary (fun t => .value true (t.getD "")) ++
  ifDiffers before.overlay.secondary after.overlay.secondary (fun t => .value false (t.getD "")) ++
  ifDiffers before.phase after.phase .phase ++
  ifDiffers before.overlayAttached after.overlayAttached .overlayAttached

end Presentation

end EngineShell
