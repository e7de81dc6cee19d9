/-!
# Engine commands

A command is an integer code and a text. Eleven codes have a meaning (`Action`); `ofCode_code`
says that the codes tell the actions apart, and any other code names no action.
-/

namespace EngineShell

/-- What a command asks for. -/
inductive Action where
  | fatalTermination
  | recoverableTermination
  | queryFinishing
  | setTitle
  | showOpeningProgress
  | showModelProgress
  | hideModelProgress
  | startImageProgress
  | updateImageProgress
  | setSecondaryValue
  | setPrimaryValue
  deriving DecidableEq, Repr

namespace Action

def code : Action → Int
  | fatalTermination => -2
  | recoverableTermination => -1
  | queryFinishing => 7
  | setTitle => 8
  | showOpeningProgress => 20
  | showModelProgress => 21
  | hideModelProgress => 22
  | startImageProgress => 100
  | updateImageProgress => 101
  | setSecondaryValue => 120
  | setPrimaryValue => 121

def name : Action → String
  | fatalTermination => "FatalTermination"
  | recoverableTermination => "RecoverableTermination"
  | queryFinishing => "QueryFinishing"
  | setTitle => "SetTitle"
  | showOpeningProgress => "ShowOpeningProgress"
  | showModelProgress => "ShowModelProgress"
  | hideModelProgress => "HideModelProgress"
  | startImageProgress => "StartImageProgress"
  | updateImageProgress => "UpdateImageProgress"
  | setSecondaryValue => "SetSecondaryValue"
  | setPrimaryValue => "SetPrimaryValue"

/-- Every action, by rising code. -/
def all : List Action :=
  [fatalTermination, recoverableTermination, queryFinishing, setTitle, showOpeningProgress,
    showModelProgress, hideModelProgress, startImageProgress, updateImageProgress,
    setSecondaryValue, setPrimaryValue]

def ofCode? (code : Int) : Option Action :=
  all.find? fun a => a.code == code

/-- Whether the action only asks and changes nothing. -/
def isQuery (a : Action) : Bool :=
  a == queryFinishing

theorem ofCode_code (a : Action) : ofCode? a.code = some a := by
  cases a <;> rfl

theorem code_of_ofCode {n : Int} {a : Action} (h : ofCode? n = some a) : a.code = n := by
  simpa using List.find?_some h

end Action

/-- One command as the engine sends it. -/
structure Command where
  code : Int
  argument : String
  deriving DecidableEq, Repr

namespace Command

def of (action : Action) (argument : String) : Command :=
  ⟨action.code, argument⟩

/-- What the command asks for, if its code means anything. -/
def action? (c : Command) : Option Action :=
  Action.ofCode? c.code

end Command

end EngineShell
