import EngineShell.Text.Quoted
import EngineShell.Text.Search

/-!
# The console

Messages on a console. The control characters that a terminal would act upon are written as
escapes, but tabs and line ends stay, so a message may take several lines. `Console.line?` looks
for a text in the lines.
-/

namespace EngineShell

/-- A message of a run. A detail is only told in debug mode. -/
structure Notice where
  text : String
  isDetail : Bool := false
  deriving DecidableEq, Repr

namespace Notice

/-- A message that is told in any mode. -/
def tell (text : String) : Notice :=
  { text }

/-- A message that is told in debug mode. -/
def detail (text : String) : Notice :=
  { text, isDetail := true }

end Notice

namespace Console

/-- The written form of a control character: two digits below U+0080, and the code in braces
above. -/
def escapeControl (c : Char) : List Char :=
  let digits := Text.hexadecimal c.toNat
  if c.toNat < 0x80 then '\\' :: 'x' :: (List.replicate (2 - digits.length) '0' ++ digits)
  else '\\' :: 'u' :: '\x7b' :: (digits ++ ['\x7d'])

/-- Whether a terminal would act upon a character: bell, backspace, form feed, escape, delete and
the control characters from U+0080 on. -/
def isTerminalControl (c : Char) : Bool :=
  let n := c.toNat
  n == 0x07 || n == 0x08 || n == 0x0C || n == 0x1B || (0x7F ≤ n && n ≤ 0x9F)

def written (message : String) : String :=
  .ofList (message.toList.flatMap fun c => if isTerminalControl c then escapeControl c else [c])

/-- What is written of the messages of a run. -/
def ofNotices (debug : Bool) (notices : List Notice) : List String :=
  (notices.filter fun n => debug || !n.isDetail).map fun n => written n.text

def dropReturn (line : List Char) : List Char :=
  if line.getLast? = some '\r' then line.dropLast else line

def lines (message : String) : List (List Char) :=
  (Text.split '\n' message.toList).map dropReturn

/-- What follows a text within a line, that text included. -/
def lineFrom? (text : List Char) : List Char → Option (List Char)
  | [] => if text.isEmpty then some [] else none
  | c :: cs => if text.isPrefixOf (c :: cs) then some (c :: cs) else lineFrom? text cs

/-- The first line of a console with a text in it, from the text on. -/
def line? (console : List String) (text : String) : Option String :=
  ((console.flatMap lines).findSome? (lineFrom? text.toList)).map .ofList

end Console

end EngineShell
