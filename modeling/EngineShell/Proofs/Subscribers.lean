import EngineShell.Presentation.Board
import Mathlib.Tactic

/-!
# Subscribers

An observer that hears of changes keeps a view of the presentation, without the texts of the form
and the scale of the bars, and puts into it what each change says (`View.hear`). The changes
between two presentations take the view of the one to that of the other (`foldl_changes`), and
there are none only if the two are equal (`changes_eq_nil`). So a subscriber that does not fall too
far behind knows what is shown from the changes alone (`follows_takeAll`).
-/

namespace EngineShell

structure BarView where
  visible : Bool
  indeterminate : Bool
  value : Int
  deriving DecidableEq, Repr

/-- An absent bar looks like a fresh one. -/
def BarView.of (p : Option Progress) : BarView :=
  let p := p.getD {}
  ⟨p.visible, p.indeterminate, p.value⟩

/-- What observers see of a presentation. -/
structure View where
  fatal : Bool
  submitEnabled : Bool
  progressVisible : Bool
  errorMessage : Option String
  focus : Option Field
  title : String
  opening : BarView
  model : BarView
  image : BarView
  primary : String
  secondary : String
  phase : Phase
  overlayAttached : Bool
  deriving DecidableEq, Repr

/-- The view after a change. The texts of the form are not seen. -/
def View.hear (v : View) : Change → View
  | .screen fatal => { v with fatal }
  | .fields => v
  | .submitEnabled submitEnabled => { v with submitEnabled }
  | .progress .login visible _ _ => { v with progressVisible := visible }
  | .progress .opening visible indeterminate value =>
    { v with opening := ⟨visible, indeterminate, value⟩ }
  | .progress .model visible indeterminate value =>
    { v with model := ⟨visible, indeterminate, value⟩ }
  | .progress .image visible indeterminate value =>
    { v with image := ⟨visible, indeterminate, value⟩ }
  | .errorMessage errorMessage => { v with errorMessage }
  | .focus focus => { v with focus }
  | .title title => { v with title }
  | .value true primary => { v with primary }
  | .value false secondary => { v with secondary }
  | .phase phase => { v with phase }
  | .overlayAttached overlayAttached => { v with overlayAttached }

namespace Presentation

/-- What observers see. An absent text looks like an empty one. -/
def view (p : Presentation) : View where
  fatal := p.isFatal
  submitEnabled := p.form.submitEnabled
  progressVisible := p.form.progressVisible
  errorMessage := p.form.errorMessage
  focus := p.form.focus
  title := p.overlay.repoTitle.getD ""
  opening := .of p.overlay.opening
  model := .of p.overlay.model
  image := .of p.overlay.image
  primary := p.overlay.primary.getD ""
  secondary := p.overlay.secondary.getD ""
  phase := p.phase
  overlayAttached := p.overlayAttached

theorem isFatal_congr {p p' : Presentation} (h : p.screen = p'.screen) :
    p'.isFatal = p.isFatal := by
  simp only [isFatal, fatalMessage?, h]

section IfDiffers

variable {α : Type} [DecidableEq α] {before after : α} {change : α → Change}

theorem ifDiffers_eq_nil : ifDiffers before after change = [] ↔ before = after := by
  unfold ifDiffers
  split_ifs with h <;> simp [h]

/-- A part that stays the same may as well be heard of. -/
theorem foldl_ifDiffers_append {v : View} (h : before = after → v.hear (change after) = v)
    (cs : List Change) : (ifDiffers before after change ++ cs).foldl View.hear v
      = cs.foldl View.hear (v.hear (change after)) := by
  unfold ifDiffers
  split_ifs with heq
  · rw [h heq, List.nil_append]
  · rfl

end IfDiffers

theorem changes_eq_nil {p p' : Presentation} : p.changes p' = [] ↔ p = p' := by
  obtain ⟨screen, ⟨_, _, _, _, _⟩, ⟨_, _, _, _, _, _⟩, _, _⟩ := p
  obtain ⟨screen', ⟨_, _, _, _, _⟩, ⟨_, _, _, _, _, _⟩, _, _⟩ := p'
  simp only [changes, List.append_eq_nil_iff, ifDiffers_eq_nil, and_assoc, mk.injEq,
    LoginForm.mk.injEq, Widgets.mk.injEq]

/-- The changes take an observer from the one presentation to the other. -/
theorem foldl_changes (p p' : Presentation) : (p.changes p').foldl View.hear p.view = p'.view := by
  -- part by part, for what was heard so far has left the next part as it was in `p`
  rw [changes, ← List.append_nil (_ ++ _)]
  simp only [List.append_assoc]
  rw [foldl_ifDiffers_append fun h => by rw [isFatal_congr h]; rfl,
    foldl_ifDiffers_append fun _ => rfl,
    foldl_ifDiffers_append fun h => by rw [← h]; rfl,
    foldl_ifDiffers_append fun h => by rw [← h]; rfl,
    foldl_ifDiffers_append fun h => by rw [← h]; rfl,
    foldl_ifDiffers_append fun h => by rw [← h]; rfl,
    foldl_ifDiffers_append fun h => by rw [← h]; rfl,
    foldl_ifDiffers_append fun h => by rw [← h]; rfl,
    foldl_ifDiffers_append fun h => by rw [← h]; rfl,
    foldl_ifDiffers_append fun h => by rw [← h]; rfl,
    foldl_ifDiffers_append fun h => by rw [← h]; rfl,
    foldl_ifDiffers_append fun h => by rw [← h]; rfl,
    foldl_ifDiffers_append fun h => by rw [← h]; rfl,
    foldl_ifDiffers_append fun h => by rw [← h]; rfl]
  rfl

end Presentation

/-- A subscriber: its position, how many changes it has lost, and those that it has heard. -/
structure Subscriber where
  position : Nat
  missed : Nat := 0
  heard : List Change := []
  deriving DecidableEq, Repr

namespace Subscriber

/-- Listen to a board, for so many changes at most. -/
def listen (s : Subscriber) (b : Board) (limit : Nat) : Subscriber :=
  let reception := b.waiting s.position
  let changes := reception.changes.take limit
  { position := s.position + reception.missed + changes.length
    missed := s.missed + reception.missed
    heard := s.heard ++ changes }

end Subscriber

/-- A board with its subscribers, the oldest first. -/
structure Audience where
  board : Board := {}
  subscribers : List Subscriber := []
  deriving DecidableEq, Repr

/-- Something that happens to a board: somebody who shares it changes it, a subscriber joins, or one
listens. -/
inductive AudienceStep where
  | update (f : Presentation → Presentation)
  | subscribe
  | listen (subscriber limit : Nat)

namespace Audience

def take (a : Audience) : AudienceStep → Audience
  | .update f => { a with board := a.board.update f }
  | .subscribe => { a with subscribers := a.subscribers ++ [{ position := a.board.position }] }
  | .listen k limit =>
    { a with subscribers := a.subscribers.modify k fun s => s.listen a.board limit }

def takeAll (a : Audience) (steps : List AudienceStep) : Audience :=
  steps.foldl take a

/-- What a step answers: an update gives the list of its changes. -/
def answer (a : Audience) : AudienceStep → List Change
  | .update f => a.board.shown.changes (f a.board.shown)
  | _ => []

def answers (a : Audience) : List AudienceStep → List Change
  | [] => []
  | step :: steps => a.answer step ++ (a.take step).answers steps

/-- How many changes a subscriber has not heard yet. -/
def behind (a : Audience) (k : Nat) : Nat :=
  match a.subscribers[k]? with
  | some s => a.board.position - s.position
  | none => 0

variable {a : Audience} {steps : List AudienceStep} {k : Nat}

theorem takeAll_concat (a : Audience) (steps : List AudienceStep) (step : AudienceStep) :
    a.takeAll (steps ++ [step]) = (a.takeAll steps).take step := by
  simp [takeAll]

theorem answers_concat (a : Audience) (steps : List AudienceStep) (step : AudienceStep) :
    a.answers (steps ++ [step]) = a.answers steps ++ (a.takeAll steps).answer step := by
  induction steps generalizing a with
  | nil => simp [answers, takeAll]
  | cons first steps ih =>
    rw [List.cons_append, answers, answers, ih, List.append_assoc]
    rfl

theorem published_take (a : Audience) (step : AudienceStep) :
    (a.take step).board.published = a.board.published ++ a.answer step := by
  cases step with
  | update f => rfl
  | _ => exact (List.append_nil _).symm

theorem foldl_answer (a : Audience) (step : AudienceStep) :
    (a.answer step).foldl View.hear a.board.shown.view = (a.take step).board.shown.view := by
  cases step with
  | update f => exact a.board.shown.foldl_changes _
  | _ => rfl

theorem published_takeAll (a : Audience) (steps : List AudienceStep) :
    (a.takeAll steps).board.published = a.board.published ++ a.answers steps := by
  induction steps using List.reverseRecOn with
  | nil => simp [takeAll, answers]
  | append_singleton steps step ih =>
    rw [takeAll_concat, published_take, ih, answers_concat, List.append_assoc]

theorem foldl_answers (a : Audience) (steps : List AudienceStep) :
    (a.answers steps).foldl View.hear a.board.shown.view = (a.takeAll steps).board.shown.view := by
  induction steps using List.reverseRecOn with
  | nil => rfl
  | append_singleton steps step ih =>
    rw [answers_concat, List.foldl_append, ih, foldl_answer, takeAll_concat]

/-- A subscriber that has lost nothing: what it has heard and what it has not heard yet are the
changes since it joined. -/
structure Hears (start : Nat) (s : Subscriber) (b : Board) : Prop where
  missed : s.missed = 0
  position : s.position ≤ b.position
  heard : s.heard ++ b.published.drop s.position = b.published.drop start
  joined : start ≤ b.position

namespace Hears

variable {start : Nat} {s : Subscriber} {b b' : Board}

theorem publish (h : Hears start s b) {changes : List Change}
    (hb : b'.published = b.published ++ changes) : Hears start s b' := by
  have hle : b.position ≤ b'.position := by simp [Board.position, hb]
  refine ⟨h.missed, h.position.trans hle, ?_, h.joined.trans hle⟩
  rw [hb, List.drop_append_of_le_length h.position, List.drop_append_of_le_length h.joined,
    ← List.append_assoc, h.heard]

/-- As long as a subscriber is not too far behind, what waits for it is what it has not heard. -/
theorem waiting_eq (hlag : b.position - s.position ≤ Board.kept) :
    b.waiting s.position = { missed := 0, changes := b.published.drop s.position } := by
  have hmissed : (b.published.drop s.position).length - Board.kept = 0 := by
    rw [List.length_drop]
    exact Nat.sub_eq_zero_of_le hlag
  rw [Board.waiting, hmissed]
  rfl

theorem listen (h : Hears start s b) (hlag : b.position - s.position ≤ Board.kept) (limit : Nat) :
    Hears start (s.listen b limit) b := by
  have hlen : (b.published.drop s.position).length = b.position - s.position := List.length_drop
  rw [Subscriber.listen, waiting_eq hlag]
  refine ⟨h.missed, ?_, ?_, h.joined⟩
  · have := h.position
    simp only [List.length_take, hlen]
    omega
  · rw [← h.heard, List.append_assoc]
    congr 1
    -- what follows the changes that it has just heard is still unheard
    simp only [Nat.add_zero, ← List.drop_drop, List.length_take]
    rcases Nat.le_total limit (b.published.drop s.position).length with hle | hle
    · rw [Nat.min_eq_left hle, List.take_append_drop]
    · rw [Nat.min_eq_right hle, List.take_of_length_le hle, List.drop_length, List.append_nil]

theorem take {a : Audience} {k : Nat} (hs : a.subscribers[k]? = some s)
    (h : Hears start s a.board) (hlag : a.behind k ≤ Board.kept) (step : AudienceStep) :
    ∃ s', (a.take step).subscribers[k]? = some s' ∧ Hears start s' (a.take step).board := by
  rw [behind, hs] at hlag
  cases step with
  | update f => exact ⟨s, hs, h.publish rfl⟩
  | subscribe =>
    obtain ⟨hlt, -⟩ := List.getElem?_eq_some_iff.1 hs
    exact ⟨s, (List.getElem?_append_left hlt).trans hs, h⟩
  | listen j limit =>
    rw [Audience.take, List.getElem?_modify, hs]
    by_cases hj : j = k
    · exact ⟨s.listen a.board limit, by simp [hj], h.listen hlag limit⟩
    · exact ⟨s, by simp [hj], h⟩

end Hears

/-- A subscriber that never falls too far behind loses nothing. -/
theorem hears_takeAll (h : ∀ part, part <+: steps →
      ((a.take .subscribe).takeAll part).behind a.subscribers.length ≤ Board.kept) :
    ∃ s, ((a.take .subscribe).takeAll steps).subscribers[a.subscribers.length]? = some s
      ∧ Hears a.board.position s ((a.take .subscribe).takeAll steps).board := by
  induction steps using List.reverseRecOn with
  | nil =>
    refine ⟨{ position := a.board.position }, ?_, rfl, le_rfl, rfl, le_rfl⟩
    simp [takeAll, take]
  | append_singleton steps step ih =>
    obtain ⟨s, hs, hears⟩ := ih fun part hp => h part (hp.trans (List.prefix_append _ _))
    rw [takeAll_concat]
    exact hears.take hs (h steps (List.prefix_append _ _)) step

/-- A subscriber that joined when something was shown knows what is shown now: it has lost nothing,
what it has heard and what waits for it are the changes that were answered since, and they lead from
the one view to the other. -/
structure Follows (joined : Presentation) (answers : List Change) (s : Subscriber) (b : Board) :
    Prop where
  missed : s.missed + (b.waiting s.position).missed = 0
  heard : s.heard ++ (b.waiting s.position).changes = answers
  view : answers.foldl View.hear joined.view = b.shown.view

/-- An update answers no changes if and only if it leaves the presentation as it is; and whoever
joins a board and never falls further behind than the changes that are kept follows what is shown
from then on. -/
theorem follows_takeAll (a : Audience) (steps : List AudienceStep)
    (h : ∀ part, part <+: steps →
      ((a.take .subscribe).takeAll part).behind a.subscribers.length ≤ Board.kept) :
    (∀ (a : Audience) f,
        a.answer (.update f) = [] ↔ (a.take (.update f)).board.shown = a.board.shown)
      ∧ ∃ s, ((a.take .subscribe).takeAll steps).subscribers[a.subscribers.length]? = some s
        ∧ Follows a.board.shown ((a.take .subscribe).answers steps) s
          ((a.take .subscribe).takeAll steps).board := by
  refine ⟨fun a f => Presentation.changes_eq_nil.trans eq_comm, ?_⟩
  obtain ⟨s, hs, hears⟩ := hears_takeAll h
  have hlag := h steps List.prefix_rfl
  rw [behind, hs] at hlag
  have hwaiting := Hears.waiting_eq hlag
  refine ⟨s, hs, ?_, ?_, foldl_answers (a.take .subscribe) steps⟩
  · simp [hwaiting, hears.missed]
  · rw [hwaiting, hears.heard, published_takeAll]
    exact List.drop_left

/-- A run in which a subscriber listens once, and the presentation changes before and after. -/
def inattentive : List AudienceStep :=
  [.update fun p => { p with phase := .opening, overlay := { repoTitle := some "" } },
    .listen 0 1, .update fun p => { p with screen := .fatal "crashed" "linux" }, .update id]

/-- It has heard one of three changes, and will know of all three. -/
theorem follows_inattentive : (({} : Audience).take .subscribe).answers inattentive
      = [.title "", .phase .opening, .screen true]
    ∧ ∃ s, ((({} : Audience).take .subscribe).takeAll inattentive).subscribers[0]? = some s
      ∧ s.heard = [.title ""]
      ∧ Follows {} [.title "", .phase .opening, .screen true] s
        ((({} : Audience).take .subscribe).takeAll inattentive).board := by
  have hlag : ∀ part ∈ inattentive.inits,
      ((({} : Audience).take .subscribe).takeAll part).behind 0 ≤ Board.kept := by decide
  obtain ⟨-, s, hs, hf⟩ := follows_takeAll {} inattentive fun part hp =>
    hlag part ((List.mem_inits _ _).2 hp)
  have hanswers : (({} : Audience).take .subscribe).answers inattentive
      = [.title "", .phase .opening, .screen true] := by decide
  refine ⟨hanswers, s, hs, ?_, hanswers ▸ hf⟩
  have hheard : ((({} : Audience).take .subscribe).takeAll inattentive).subscribers[0]?.map
      (·.heard) = some [.title ""] := by decide
  have hs : ((({} : Audience).take .subscribe).takeAll inattentive).subscribers[0]? = some s := hs
  simpa [hs] using hheard

end Audience

end EngineShell
