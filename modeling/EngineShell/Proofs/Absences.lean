import EngineShell.Proofs.Contents
import EngineShell.Proofs.Writing

/-!
# Commands for widgets that are not there

Six codes demand a widget of the overlay (`Command.demands`). Where it is not there, the command
leaves all widgets as they are. It is rejected under either policy, with one exception
(`tolerated_iff`): a command that carries an integer has it read before its widget is looked for, so
that the strict policy escalates a malformed one although there is nothing to show it on.
-/

namespace EngineShell

namespace Command

/-- The codes of the commands that cannot do without a widget, with the widget. -/
def demands : List (Int × Widget) :=
  [(8, .repoTitle), (20, .openingProgress), (21, .modelProgress), (22, .modelProgress),
    (100, .imageProgress), (101, .imageProgress)]

/-- Whether the command should carry an integer and does not. -/
def isGarbled (c : Command) : Bool :=
  (c.code == 100 || c.code == 101) && (Text.readInt32 c.argument.toList).isNone

/-- What is found wrong first with a command whose widget is not there. -/
def fault (c : Command) (widget : Widget) : Violation :=
  if c.isGarbled then .badArgument c.code c.argument else .missingWidget c.code widget

end Command

namespace Widgets

variable {w : Widgets} {c : Command} {widget : Widget}

/-- A command that carries an integer is at fault for it before the widget is missed. -/
theorem readValue_bind_require (action : Action) (argument : String) (widget : Widget)
    (change : Int → Progress → Progress) (put : Option Progress → Widgets) :
    (readValue action argument >>= fun value => require action widget none (change value) put)
      = .error (if (Text.readInt32 argument.toList).isNone then .badArgument action.code argument
        else .missingWidget action.code widget) := by
  unfold readValue
  cases Text.readInt32 argument.toList <;> rfl

theorem perform_of_lacks (finishing : Bool) (hdemands : (c.code, widget) ∈ Command.demands)
    (hlacks : w.has widget = false) :
    ∃ action, c.action? = some action
      ∧ w.perform finishing action c.argument = .error (c.fault widget) := by
  obtain ⟨code, argument⟩ := c
  simp only [Command.demands, List.mem_cons, List.not_mem_nil, Prod.mk.injEq, or_false] at hdemands
  rcases hdemands with ⟨rfl, rfl⟩ | ⟨rfl, rfl⟩ | ⟨rfl, rfl⟩ | ⟨rfl, rfl⟩ | ⟨rfl, rfl⟩
    | ⟨rfl, rfl⟩ <;>
    simp only [has, Option.isSome_eq_false_iff, Option.isNone_iff_eq_none] at hlacks
  · refine ⟨.setTitle, rfl, ?_⟩
    rw [perform, hlacks]
    rfl
  · refine ⟨.showOpeningProgress, rfl, ?_⟩
    rw [perform, hlacks]
    rfl
  · refine ⟨.showModelProgress, rfl, ?_⟩
    rw [perform, hlacks]
    rfl
  · refine ⟨.hideModelProgress, rfl, ?_⟩
    rw [perform, hlacks]
    rfl
  · refine ⟨.startImageProgress, rfl, ?_⟩
    rw [perform, hlacks, readValue_bind_require]
    rfl
  · refine ⟨.updateImageProgress, rfl, ?_⟩
    rw [perform, hlacks, readValue_bind_require]
    rfl

theorem apply_of_lacks (policy : Policy) (finishing : Bool)
    (hdemands : (c.code, widget) ∈ Command.demands) (hlacks : w.has widget = false) :
    w.apply policy finishing c = (policy.settle (c.fault widget)).map (·, w) := by
  obtain ⟨action, haction, hperform⟩ := perform_of_lacks finishing hdemands hlacks
  simp only [apply, haction, hperform]

theorem settle_fault (policy : Policy) (c : Command) (widget : Widget) :
    policy.settle (c.fault widget)
      = if policy = .strict ∧ c.isGarbled then .error (.badArgument c.code c.argument)
        else .ok (.rejected (c.fault widget)) := by
  unfold Command.fault
  cases policy <;> cases c.isGarbled <;> rfl

/-- A command for a widget that is not there is rejected if and only if it is not both malformed and
under the strict policy; there it fails for its argument. Nothing is written in either case. -/
theorem tolerated_iff (policy : Policy) (finishing : Bool)
    (hdemands : (c.code, widget) ∈ Command.demands) (hlacks : w.has widget = false) :
    ((∃ v, w.apply policy finishing c = .ok (.rejected v, w))
        ↔ ¬ (policy = .strict ∧ c.isGarbled = true))
      ∧ (w.apply policy finishing c = .error (.badArgument c.code c.argument)
        ↔ policy = .strict ∧ c.isGarbled = true)
      ∧ (w.write policy finishing c).2 = w := by
  rw [write_eq, apply_of_lacks policy finishing hdemands hlacks, settle_fault]
  split_ifs with h
  · refine ⟨⟨?_, fun hnot => (hnot h).elim⟩, ⟨fun _ => h, fun _ => rfl⟩, rfl⟩
    rintro ⟨v, hv⟩
    cases hv
  · refine ⟨⟨fun _ => h, fun _ => ⟨_, rfl⟩⟩, ⟨fun herror => ?_, fun h' => (h h').elim⟩, rfl⟩
    cases herror

/-- The widgets of an overlay that has no image progress. -/
def imageless : Widgets :=
  .forLayout { widgets := [.repoTitle, .openingProgress, .modelProgress] }

/-- A malformed number for the image progress that is not there is rejected by the lenient policy
and escalated by the strict one, which lets a number pass. -/
theorem tolerated_imageless :
    (100, Widget.imageProgress) ∈ Command.demands
      ∧ imageless.has .imageProgress = false
      ∧ (∃ v, imageless.apply .lenient false ⟨100, "half"⟩ = .ok (.rejected v, imageless))
      ∧ (∃ v, imageless.apply .strict false ⟨100, "500"⟩ = .ok (.rejected v, imageless))
      ∧ (¬ ∃ v, imageless.apply .strict false ⟨100, "half"⟩ = .ok (.rejected v, imageless))
      ∧ imageless.apply .strict false ⟨100, "half"⟩ = .error (.badArgument 100 "half") := by
  have hdemands : (100, Widget.imageProgress) ∈ Command.demands := by decide
  have hlacks : imageless.has .imageProgress = false := rfl
  have hgarbled : Command.isGarbled ⟨100, "half"⟩ = true := by decide
  have hnumber : ¬ Command.isGarbled ⟨100, "500"⟩ = true := by decide
  obtain ⟨hlenient, -⟩ := tolerated_iff (c := ⟨100, "half"⟩) .lenient false hdemands hlacks
  obtain ⟨hwell, -⟩ := tolerated_iff (c := ⟨100, "500"⟩) .strict false hdemands hlacks
  obtain ⟨hstrict, herror, -⟩ := tolerated_iff (c := ⟨100, "half"⟩) .strict false hdemands hlacks
  refine ⟨hdemands, hlacks, hlenient.2 (by simp), hwell.2 fun h => hnumber h.2, ?_,
    herror.2 ⟨rfl, hgarbled⟩⟩
  exact fun h => hstrict.1 h ⟨rfl, hgarbled⟩

end Widgets

end EngineShell
