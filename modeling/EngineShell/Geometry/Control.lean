/-!
# Overlay controls

The ten controls whose rectangles the engine tracks. Their order and their codes (`table`) are
agreed with the engine; `ofCode_code` says that the codes tell the controls apart.
-/

namespace EngineShell

/-- A control of the overlay. -/
inductive Control where
  | rotate
  | zoom
  | dataOnly
  | xfunc
  | skipMisc
  | proofreadEnd
  | extendBranch
  | jumpAndReport
  | xfunc2
  | cursor
  deriving DecidableEq, Repr

namespace Control

/-- The code of the control in the engine's geometry table. -/
def code : Control → Int
  | rotate => 101
  | zoom => 102
  | dataOnly => 103
  | xfunc => 104
  | skipMisc => 105
  | proofreadEnd => 106
  | extendBranch => 107
  | jumpAndReport => 108
  | xfunc2 => 109
  | cursor => 201

def name : Control → String
  | rotate => "rotate"
  | zoom => "zoom"
  | dataOnly => "data_only"
  | xfunc => "xfunc"
  | skipMisc => "skip_misc"
  | proofreadEnd => "proofread_end"
  | extendBranch => "extend_branch"
  | jumpAndReport => "jump_and_report"
  | xfunc2 => "xfunc2"
  | cursor => "cursor"

/-- The controls in the order of the engine's geometry table. -/
def table : List Control :=
  [rotate, zoom, dataOnly, xfunc, skipMisc, proofreadEnd, extendBranch, jumpAndReport, xfunc2,
    cursor]

def ofCode? (code : Int) : Option Control :=
  table.find? fun c => c.code == code

theorem mem_table (c : Control) : c ∈ table := by
  cases c <;> decide

theorem nodup_table : table.Nodup := by
  decide

theorem ofCode_code (c : Control) : ofCode? c.code = some c := by
  cases c <;> rfl

theorem code_of_ofCode {n : Int} {c : Control} (h : ofCode? n = some c) : c.code = n := by
  simpa using List.find?_some h

end Control

end EngineShell
