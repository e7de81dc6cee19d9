import EngineShell.Yaml.Place

/-!
# Reading blocks

A block is a text of whole lines after a bar or an angle. Its depth is announced, or it is that of
its first line. In a folded block the line breaks between lines that start with no blank are
folded. What becomes of the line breaks at its end is its chomping.
-/

namespace EngineShell.Yaml

/-- What becomes of the line breaks at the end of a block. -/
inductive Chomping where
  | strip
  | clip
  | keep
  deriving DecidableEq

def Chomping.ofMark? (c : Char) : Option Chomping :=
  if c == '-' then some .strip else if c == '+' then some .keep else none

/-- The announced depth of a block from one to nine, if there is one. Zero is a fault. -/
def announcedDepth (d : Dialect) (p : Place) : Option (Option Nat × Place) :=
  match p.rest with
  | [] => some (none, p)
  | c :: _ =>
    if c == '0' then none
    else if c.isDigit then some (some (c.toNat - 48), p.skip d)
    else some (none, p)

def markedChomping (d : Dialect) (p : Place) : Option Chomping × Place :=
  match p.rest.head?.bind Chomping.ofMark? with
  | some chomping => (some chomping, p.skip d)
  | none => (none, p)

/-- The depth and the chomping after the bar or the angle of a block, in any order, and the place
on the same line after them and after a comment. -/
def readHead (d : Dialect) (p : Place) : Option (Option Nat × Chomping × Place) :=
  let (before, p) := markedChomping d p
  (announcedDepth d p).bind fun (depth, p) =>
    let (after, p) := if before.isNone && depth.isSome then markedChomping d p else (none, p)
    let chomping := (before.or after).getD .clip
    let last := match d with
      | .stored => some ((p.skipWhile d isBlank).skipComment d)
      | .edited => (p.skipApart? d).map Prod.snd
    (last.filter fun q => d.atLineEnd q.rest).map fun q => (depth, chomping, q)

/-- The characters of a class that a text starts with, but no more than some number. -/
def takeUpTo (most : Option Nat) (test : Char → Bool) (cs : List Char) : List Char :=
  let run := cs.takeWhile test
  (most.map run.take).getD run

/-- Skip the blank lines before a line of a block, and the spaces of that line up to the depth of
the block, if it is known. The answer holds the line breaks and the column of the deepest line. In
a stored text a tab in place of such a space is a fault. -/
def skipBlankLines (d : Dialect) (depth : Option Nat) :
    Nat → Place → Option (List Char × Nat × Place)
  | 0, _ => none
  | fuel + 1, p =>
    let q := p.skipOver d (takeUpTo (depth.map (· - p.column)) (· == ' ') p.rest)
    let shallow := depth.all fun n => decide (q.column < n)
    if d == .stored && shallow && q.sees '\t' then none
    else if q.atBreak d then
      (skipBlankLines d depth fuel (q.skipBreak d)).map fun (breaks, deepest, last) =>
        (q.breakText ++ breaks, max deepest q.column, last)
    else some ([], q.column, q)

/-- The text of the lines of a block that stand at its depth, then the break after the last line
and those of the blank lines after it. `before` holds the break before this line and those of the
blank lines between, `deep` says whether the line before starts with a blank. -/
def readLines (d : Dialect) (folded : Bool) (depth : Nat) :
    Nat → Bool → List Char × List Char → Place →
      Option (List Char × (List Char × List Char) × Place)
  | 0, _, _, _ => none
  | fuel + 1, deep, before, p =>
    if p.column ≠ depth || p.atEnd then some ([], before, p)
    else
      let blank := p.rest.head?.any isBlank
      let gap := if folded && !deep && !blank then foldBreaks before.1 before.2
        else before.1 ++ before.2
      let line := p.rest.takeWhile (!d.isBreak ·)
      let q := p.skipOver d line
      if q.atEnd then some (gap ++ line, ([], []), q)
      else
        let next := q.skipBreak d
        (skipBlankLines d (some depth) (next.rest.length + 1) next).bind fun (breaks, _, start) =>
          (readLines d folded depth fuel blank (q.breakText, breaks) start).map
            fun (text, after, last) => (gap ++ line ++ text, after, last)

/-- The depth of a block in a part at a depth: it is announced, or that of the deepest of its first
line and the blank lines before it. -/
def blockDepth (d : Dialect) (depth : Int) (announced : Option Nat) (deepest : Nat) : Nat :=
  match announced with
  | some n => depth.toNat + n
  | none => max deepest (max (depth + 1).toNat (if d = .stored then 1 else 0))

/-- What remains of the end of an edited text that holds no line of a block: the break after its
head, or those of the blank lines. -/
def emptyBlock (chomping : Chomping) (head blanks : List Char) : List Char :=
  match chomping with
  | .strip => []
  | .clip => head
  | .keep => if blanks.isEmpty then head else blanks

/-- A block within a part at a depth, from its bar or angle on. An edited block ends with a line
break even if the text ends with its last line. -/
def readBlock (d : Dialect) (depth : Int) (p : Place) : Option (List Char × Place) := do
  let folded := p.sees '>'
  let (announced, chomping, q) ← readHead d (p.skip d)
  let head := q.breakText
  let start := q.skipBreak d
  if d = .edited && start.sees '\t' then none
  let known := announced.map (depth.toNat + ·)
  let (breaks, deepest, first) ← skipBlankLines d known (start.rest.length + 1) start
  let depthOfLines := blockDepth d depth announced deepest
  if d = .edited && first.atEnd then return (emptyBlock chomping head breaks, first)
  if d = .edited && first.column < depthOfLines && decide (depth < first.column) then none
  let (text, after, last) ←
    readLines d folded depthOfLines (first.rest.length + 1) false ([], breaks) first
  let final := if d = .edited && last.atEnd && max depthOfLines 1 ≤ last.column then ['\n'] else []
  return (match chomping with
    | .strip => text
    | .clip => text ++ after.1 ++ final
    | .keep => text ++ after.1 ++ final ++ after.2, last)

end EngineShell.Yaml
