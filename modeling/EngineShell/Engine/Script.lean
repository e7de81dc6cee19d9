import EngineShell.Engine.Sink

/-!
# Script threads

A thread that sends the commands of a script, one after the other. Before each command it asks
whether the host finishes, and if so it stops. `ScriptThread.run` lets the thread run to its end
against any receiver of commands; `deliver` sends commands with such questions or without.
-/

namespace EngineShell

/-- A thread, with the commands still to send and the number sent. -/
structure ScriptThread where
  remaining : List Command
  asked : Bool := false
  sent : Nat := 0
  deriving DecidableEq, Repr

namespace ScriptThread

/-- The question whether the host finishes. -/
def question : Command :=
  .of .queryFinishing ""

/-- What the thread does next: ask, or send the command it has asked for. -/
def next? (t : ScriptThread) : Option Command :=
  match t.remaining with
  | [] => none
  | c :: _ => some (if t.asked then c else question)

def advance (t : ScriptThread) (reply : Int) : ScriptThread :=
  if t.asked then { remaining := t.remaining.tail, asked := false, sent := t.sent + 1 }
  else if reply = 1 then { t with remaining := [] }
  else { t with asked := true }

/-- A bound on what the thread still does. -/
def steps (t : ScriptThread) : Nat :=
  2 * t.remaining.length + if t.asked then 0 else 1

theorem steps_advance_lt {t : ScriptThread} (h : t.remaining ≠ []) (reply : Int) :
    (t.advance reply).steps < t.steps := by
  obtain ⟨remaining, asked, sent⟩ := t
  cases remaining with
  | nil => exact absurd rfl h
  | cons c cs =>
    cases asked <;> simp only [advance, steps]
    · by_cases hr : reply = 1 <;> simp [hr]
    · simp; omega

/-- Run the thread to its end. The receiver takes a command and gives a reply, or none if it
breaks off and the thread with it. The answer is the number of commands sent by a thread that
came to its end. -/
def run {σ : Type} (receive : Command → σ → Option Int × σ) (t : ScriptThread) (s : σ) :
    Option Nat × σ :=
  match h : t.remaining with
  | [] => (some t.sent, s)
  | c :: _ =>
    match receive (if t.asked then c else question) s with
    | (none, s) => (none, s)
    | (some reply, s) =>
      have : (t.advance reply).steps < t.steps := steps_advance_lt (by simp [h]) reply
      run receive (t.advance reply) s
termination_by t.steps

end ScriptThread

/-- Send commands to a receiver that always replies, asking before each or not. -/
def deliver {σ : Type} (receive : Command → σ → Int × σ) (courteous : Bool)
    (commands : List Command) (s : σ) : σ :=
  if courteous then
    let receive? (c : Command) (s : σ) : Option Int × σ :=
      let (reply, s) := receive c s
      (some reply, s)
    (ScriptThread.run receive? { remaining := commands } s).2
  else commands.foldl (fun s c => (receive c s).2) s

end EngineShell
