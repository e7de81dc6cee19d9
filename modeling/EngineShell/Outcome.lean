/-!
# Session outcomes

How a session attempt ends: normally, with an error the form recovers from, or with an error
that ends the host's work for good. On the engine's result channel an outcome is a code and a
message; `ofResult_code` says that the code and message determine the outcome.
-/

namespace EngineShell

/-- How a session attempt ended. -/
inductive Outcome where
  | success
  | recoverable (message : String)
  | fatal (message : String)
  deriving DecidableEq, Repr

namespace Outcome

/-- The number of the outcome on the result channel. -/
def code : Outcome → Int
  | success => 0
  | recoverable _ => -1
  | fatal _ => -2

/-- The error text, if there is an error. -/
def message? : Outcome → Option String
  | success => none
  | recoverable m => some m
  | fatal m => some m

/-- Whether the outcome ends the host's work for good. -/
def isFatal : Outcome → Bool
  | fatal _ => true
  | _ => false

/-- The outcome a code and a message stand for. A missing message is empty. -/
def ofResult? (code : Int) (message : Option String) : Option Outcome :=
  let text := message.getD ""
  if code = 0 then some .success
  else if code = -1 then some (.recoverable text)
  else if code = -2 then some (.fatal text)
  else none

theorem ofResult_code (o : Outcome) : ofResult? o.code o.message? = some o := by
  cases o <;> rfl

end Outcome

end EngineShell
