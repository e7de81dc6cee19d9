/-!
# Icon taps

A burst of taps forces the fatal screen: a tap fires when the history of the last seven is full
and its oldest entry lies less than five seconds back. Firing empties the history.
-/

namespace EngineShell

/-- What a tap did. -/
inductive TapVerdict where
  | recorded
  | fired
  deriving DecidableEq, Repr

def TapVerdict.name : TapVerdict → String
  | recorded => "Recorded"
  | fired => "Fired"

/-- The times of the last taps in milliseconds, the newest first. -/
structure Taps where
  times : List Nat := []
  deriving DecidableEq, Repr

namespace Taps

/-- How many taps are remembered. -/
def capacity : Nat := 7

/-- A full history that spans this many milliseconds or more does not fire. -/
def window : Nat := 5000

/-- The message of the fatal screen that a burst brings up. -/
def triggeredError : String :=
  "triggered error"

def isFull (t : Taps) : Bool :=
  capacity ≤ t.times.length

def newest? (t : Taps) : Option Nat :=
  t.times.head?

def oldest? (t : Taps) : Option Nat :=
  t.times.getLast?

/-- Whether a tap at this time fires. A tap earlier than the oldest one does not. -/
def fires (t : Taps) (now : Nat) : Bool :=
  match t.oldest? with
  | some oldest => t.isFull && oldest ≤ now && now - oldest < window
  | none => false

def tap (t : Taps) (now : Nat) : TapVerdict × Taps :=
  if t.fires now then (.fired, {})
  else (.recorded, { times := (now :: t.times).take capacity })

/-- Take several taps in order. -/
def tapAll (t : Taps) : List Nat → List TapVerdict × Taps
  | [] => ([], t)
  | now :: rest =>
    let (v, t') := t.tap now
    let (vs, last) := t'.tapAll rest
    (v :: vs, last)

end Taps

end EngineShell
