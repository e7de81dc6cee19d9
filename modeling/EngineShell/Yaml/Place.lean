import EngineShell.Yaml.Basic

/-!
# Places in a text

A place is what follows, and where that stands: how far into the text, on which line, how far
into the line, and whether only blanks stand before it on the line. Places move on over
characters and over line breaks.
-/

namespace EngineShell.Yaml

/-- A place in a text. Offsets count bytes or characters, as the dialect wants it. -/
structure Place where
  rest : List Char
  offset : Nat := 0
  line : Nat := 0
  column : Nat := 0
  fresh : Bool := true

/-- What a character adds to an offset. -/
def Dialect.width : Dialect → Char → Nat
  | .stored, c => c.utf8Size
  | .edited, _ => 1

namespace Place

/-- Whether nothing follows. -/
def atEnd (p : Place) : Bool :=
  p.rest.isEmpty

def sees (p : Place) (c : Char) : Bool :=
  p.rest.head? == some c

/-- Whether a line break follows. -/
def atBreak (d : Dialect) (p : Place) : Bool :=
  p.rest.head?.any d.isBreak

/-- The place after one character that is no line break. -/
def skip (d : Dialect) (p : Place) : Place :=
  match p.rest with
  | [] => p
  | c :: cs => { p with
      rest := cs
      offset := p.offset + d.width c
      column := p.column + 1
      fresh := p.fresh && isBlank c }

/-- The place after as many characters as there are in a list. -/
def skipOver (d : Dialect) : List Char → Place → Place
  | [], p => p
  | _ :: cs, p => skipOver d cs (p.skip d)

def skipWhile (d : Dialect) (test : Char → Bool) (p : Place) : Place :=
  p.skipOver d (p.rest.takeWhile test)

/-- The place after a line break. A line feed after a carriage return belongs to it. -/
def skipBreak (d : Dialect) (p : Place) : Place :=
  match p.rest with
  | [] => p
  | '\r' :: '\n' :: cs => ⟨cs, p.offset + 2, p.line + 1, 0, true⟩
  | c :: cs => ⟨cs, p.offset + d.width c, p.line + 1, 0, true⟩

/-- What a line break reads as. -/
def breakText (p : Place) : List Char :=
  match p.rest with
  | [] => []
  | c :: _ => if isSeparator c then [c] else ['\n']

def skipComment (d : Dialect) (p : Place) : Place :=
  if p.sees '#' then p.skipWhile d (!d.isBreak ·) else p

/-- The blanks that follow and the place after them and after a comment. A comment without blanks
before it is a fault. -/
def skipApart? (d : Dialect) (p : Place) : Option (List Char × Place) :=
  let blanks := p.rest.takeWhile isBlank
  let q := p.skipOver d blanks
  if q.sees '#' && blanks.isEmpty then none else some (blanks, q.skipComment d)

/-- Whether a document mark stands here, at the start of a line. -/
def atDocumentMark (d : Dialect) (p : Place) : Bool :=
  p.column == 0 && (d.hasMark ['-', '-', '-'] p.rest || d.hasMark ['.', '.', '.'] p.rest)

end Place

/-- What line breaks within a text read as: a line feed at the front is left out, and a space
stands for it if it is alone. -/
def foldBreaks (first more : List Char) : List Char :=
  if first = ['\n'] then if more.isEmpty then [' '] else more else first ++ more

/-- Skip blanks and line breaks up to the next other character. The first answer holds the breaks.
What becomes of a tab before the column `limit` is up to `tab`. -/
def skipGaps (d : Dialect) (limit : Int) (tab : Place → Option Place) :
    Nat → Place → Option (List Char × Place)
  | 0, _ => none
  | fuel + 1, p =>
    if p.atBreak d then
      (skipGaps d limit tab fuel (p.skipBreak d)).map fun (breaks, q) => (p.breakText ++ breaks, q)
    else if p.sees '\t' && decide (p.column < limit) then
      (tab p).bind (skipGaps d limit tab fuel)
    else if p.rest.head?.any isBlank then skipGaps d limit tab fuel (p.skip d)
    else some ([], p)

end EngineShell.Yaml
