import EngineShell.Text.Number
import EngineShell.Text.Quoted
import EngineShell.Yaml.Plain

/-!
# Writing YAML

Block mappings with two spaces per level. The style of a text follows from its characters: double
quotes if some are not printable, a literal block if it has several lines, single quotes if it
would read back as something else or runs into the marks of the format, and else plain. Lines are
never folded.
-/

namespace EngineShell.Yaml

/-- What is written: a text, a word or number that is written as it is, or a mapping. -/
inductive Tree where
  | text (s : String)
  | word (s : String)
  | map (entries : List (String × Tree))

def isPrintable (c : Char) : Bool :=
  let n := c.toNat
  n == 0x0A || (0x20 ≤ n && n ≤ 0x7E) || (0xA0 ≤ n && n ≤ 0xD7FF) ||
    (0xE000 ≤ n && n ≤ 0xFFFD && n != 0xFEFF) || 0x10000 ≤ n

/-- The characters that end a line. -/
def isBreak (c : Char) : Bool :=
  c == '\n' || c == '\r' || c.toNat == 0x85 || c.toNat == 0x2028 || c.toNat == 0x2029

/-- A blank, the end of a line, or the end of the text. -/
def endsWord : Option Char → Bool
  | none => true
  | some c => c == ' ' || c == '\t' || c.toNat == 0 || isBreak c

/-- A number in base sixteen with upper-case digits, filled up with zeros. -/
def hexUpper (width n : Nat) : List Char :=
  let digits := (Text.hexadecimal n).map Char.toUpper
  List.replicate (width - digits.length) '0' ++ digits

/-- The escape of a character between double quotes. -/
def escape (c : Char) : List Char :=
  let n := c.toNat
  if n = 0 then ['\\', '0']
  else if n = 7 then ['\\', 'a']
  else if n = 8 then ['\\', 'b']
  else if n = 9 then ['\\', 't']
  else if n = 10 then ['\\', 'n']
  else if n = 11 then ['\\', 'v']
  else if n = 12 then ['\\', 'f']
  else if n = 13 then ['\\', 'r']
  else if n = 0x1B then ['\\', 'e']
  else if n = 0x22 then ['\\', '"']
  else if n = 0x5C then ['\\', '\\']
  else if n = 0x85 then ['\\', 'N']
  else if n = 0xA0 then ['\\', '_']
  else if n = 0x2028 then ['\\', 'L']
  else if n = 0x2029 then ['\\', 'P']
  else if n ≤ 0xFF then '\\' :: 'x' :: hexUpper 2 n
  else if n ≤ 0xFFFF then '\\' :: 'u' :: hexUpper 4 n
  else '\\' :: 'U' :: hexUpper 8 n

/-- A text between double quotes, on one line. -/
def doubleQuoted (cs : List Char) : List Char :=
  let shown (c : Char) : List Char :=
    if isPrintable c && !isBreak c && c != '"' && c != '\\' then [c] else escape c
  '"' :: (cs.flatMap shown ++ ['"'])

/-- The inside of a text between single quotes. What follows the end of a line is indented. -/
def singleInside (indent : Nat) : Bool → List Char → List Char
  | atStart, [] => if atStart then List.replicate indent ' ' else []
  | atStart, c :: cs =>
    if isBreak c then c :: singleInside indent true cs
    else
      let lead := if atStart then List.replicate indent ' ' else []
      let shown := if c = '\'' then ['\'', '\''] else [c]
      lead ++ shown ++ singleInside indent false cs

def singleQuoted (indent : Nat) (cs : List Char) : List Char :=
  '\'' :: (singleInside indent false cs ++ ['\''])

/-- The lines of a literal block; an empty one is not indented. -/
def blockLines (indent : Nat) : Bool → List Char → List Char
  | _, [] => []
  | atStart, c :: cs =>
    if isBreak c then c :: blockLines indent true cs
    else
      let lead := if atStart then List.replicate indent ' ' else []
      lead ++ c :: blockLines indent false cs

/-- The marks after the bar of a literal block: whether the first line says how far the block is
indented, and what becomes of the ends of lines at the end. -/
def blockMarks (cs : List Char) : List Char :=
  let start := match cs with
    | c :: _ => if c == ' ' || isBreak c then ['2'] else []
    | [] => []
  let ends := match cs.reverse with
    | [] => ['-']
    | [c] => if isBreak c then ['+'] else ['-']
    | c :: d :: _ => if !isBreak c then ['-'] else if isBreak d then ['+'] else []
  start ++ ends

def literal (indent : Nat) (cs : List Char) : List Char :=
  '|' :: (blockMarks cs ++ '\n' :: blockLines indent true cs)

/-- Whether some character has a successor as told. -/
def hasPair (p : Char → Option Char → Bool) : List Char → Bool
  | [] => false
  | c :: cs => p c cs.head? || hasPair p cs

/-- Whether a space stands before the end of a line. -/
def spaceBeforeBreak (cs : List Char) : Bool :=
  hasPair (fun c d => c == ' ' && d.any isBreak) cs

/-- Whether a space stands after the end of a line. -/
def spaceAfterBreak (cs : List Char) : Bool :=
  hasPair (fun c d => isBreak c && d == some ' ') cs

/-- Whether a text runs into the marks of the format where it stands alone. -/
def hasMarks (cs : List Char) : Bool :=
  let opening := match cs with
    | [] => false
    | c :: rest =>
      "#,[]\x7b\x7d&*!|>'\"%@`".toList.contains c ||
        ((c == '?' || c == ':' || c == '-') && endsWord rest.head?)
  opening || "---".toList.isPrefixOf cs || "...".toList.isPrefixOf cs ||
    hasPair (fun c d => c == ':' && endsWord d) cs ||
    hasPair (fun c d => endsWord (some c) && d == some '#') cs

/-- Whether a text may stand plain. -/
def plainAllowed (cs : List Char) : Bool :=
  !(needsQuotes cs || hasMarks cs || cs.any isBreak || cs.head? == some ' ' ||
    cs.getLast? == some ' ')

def scalarText (indent : Nat) (cs : List Char) : List Char :=
  if !cs.all isPrintable || spaceBeforeBreak cs then doubleQuoted cs
  else if cs.contains '\n' then
    if cs.getLast? == some ' ' then doubleQuoted cs else literal indent cs
  else if plainAllowed cs then cs
  else if spaceAfterBreak cs then doubleQuoted cs
  else singleQuoted indent cs

/-- Whether a text may stand before a colon without a mark: it has one line and at most 128
bytes. -/
def isShortKey (cs : List Char) : Bool :=
  !cs.any isBreak && (String.ofList cs).utf8ByteSize ≤ 128

def endLine (cs : List Char) : List Char :=
  if cs.getLast?.any isBreak then cs else cs ++ ['\n']

mutual

/-- What stands after the colon of a key. -/
def valueLines (indent : Nat) : Tree → List Char
  | .text s => ' ' :: endLine (scalarText (indent + 2) s.toList)
  | .word s => ' ' :: (s.toList ++ ['\n'])
  | .map [] => " \x7b\x7d\n".toList
  | .map (e :: es) => '\n' :: entryLines (indent + 2) (e :: es)

def entryLines (indent : Nat) : List (String × Tree) → List Char
  | [] => []
  | (key, value) :: es =>
    let cs := key.toList
    let lead := List.replicate indent ' '
    let head :=
      if isShortKey cs then lead ++ scalarText (indent + 2) cs ++ [':']
      else lead ++ "? ".toList ++ endLine (scalarText (indent + 2) cs) ++ lead ++ [':']
    head ++ valueLines indent value ++ entryLines indent es

end

def fileText : List (String × Tree) → String
  | [] => "\x7b\x7d\n"
  | es => .ofList (entryLines 0 es)

end EngineShell.Yaml
