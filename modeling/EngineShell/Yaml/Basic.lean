/-!
# YAML documents

A document as a tree. A scalar keeps its text and whether it was written plain, for only a plain
scalar may stand for something else than a text. Beside it, the two dialects that documents are
read in, and their classes of characters.
-/

namespace EngineShell.Yaml

/-- A part of a document. -/
inductive Node where
  | scalar (plain : Bool) (text : List Char)
  | list (items : List Node)
  | map (entries : List (Node × Node))

namespace Node

/-- A plain scalar without any text, which stands for nothing. -/
def empty : Node :=
  .scalar true []

/-- The text of a scalar, plain or not. -/
def text? : Node → Option String
  | scalar _ text => some (.ofList text)
  | _ => none

mutual

/-- How deep lists and mappings are nested in a part. -/
def depth : Node → Nat
  | scalar _ _ => 0
  | list items => depthOfItems items + 1
  | map entries => depthOfEntries entries + 1

def depthOfItems : List Node → Nat
  | [] => 0
  | n :: ns => max n.depth (depthOfItems ns)

/-- The depth of the deepest key or value. -/
def depthOfEntries : List (Node × Node) → Nat
  | [] => 0
  | (key, value) :: es => max (max key.depth value.depth) (depthOfEntries es)

end

mutual

/-- Whether all plain scalars of a part pass a test. -/
def allPlain (test : List Char → Bool) : Node → Bool
  | scalar plain text => !plain || test text
  | list items => allPlainItems test items
  | map entries => allPlainEntries test entries

def allPlainItems (test : List Char → Bool) : List Node → Bool
  | [] => true
  | n :: ns => n.allPlain test && allPlainItems test ns

/-- Whether all plain scalars of some entries pass a test. -/
def allPlainEntries (test : List Char → Bool) : List (Node × Node) → Bool
  | [] => true
  | (key, value) :: es =>
    key.allPlain test && value.allPlain test && allPlainEntries test es

end

end Node

/-- The two dialects. Files that a host has stored are read in `stored`: control characters are
refused, and the next-line character and the separators of lines and of paragraphs end a line.
Files that people have edited are read in `edited`: marks and comments must be apart from what
stands before them, and the value of a key must stand deeper than the key. -/
inductive Dialect where
  | stored
  | edited
  deriving DecidableEq, Repr

/-- A blank within a line. -/
def isBlank (c : Char) : Bool :=
  c == ' ' || c == '\t'

/-- The characters with a meaning of their own in flow style. -/
def isFlowMark (c : Char) : Bool :=
  c == ',' || c == '[' || c == ']' || c == '\x7b' || c == '\x7d'

/-- The separators of lines and of paragraphs, which are breaks that stay as they are. -/
def isSeparator (c : Char) : Bool :=
  c.toNat == 0x2028 || c.toNat == 0x2029

namespace Dialect

/-- Whether a character ends a line. -/
def isBreak (d : Dialect) (c : Char) : Bool :=
  c == '\n' || c == '\r' || (d == stored && (c.toNat == 0x85 || isSeparator c))

def atLineEnd (d : Dialect) : List Char → Bool
  | [] => true
  | c :: _ => d.isBreak c

/-- A blank, or the end of a line or of the text. -/
def atGap (d : Dialect) : List Char → Bool
  | [] => true
  | c :: _ => isBlank c || d.isBreak c

/-- Whether a mark with a gap after it stands here. -/
def hasMark (d : Dialect) (mark : List Char) (cs : List Char) : Bool :=
  mark.isPrefixOf cs && d.atGap (cs.drop mark.length)

/-- Whether a text may hold a character at all. -/
def allows (d : Dialect) (c : Char) : Bool :=
  let n := c.toNat
  d == edited || n == 0x09 || n == 0x0A || n == 0x0D || (0x20 ≤ n && n ≤ 0x7E) || n == 0x85 ||
    (0xA0 ≤ n && n ≤ 0xFFFD) || 0x10000 ≤ n

end Dialect

end EngineShell.Yaml
