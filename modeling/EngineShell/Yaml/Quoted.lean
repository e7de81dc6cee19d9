import EngineShell.Yaml.Place
import EngineShell.Yaml.Plain

/-!
# Reading quoted texts

Texts between single quotes, where a quote is written twice, and texts between double quotes, with
escapes after a backslash. Both may run over several lines; a backslash at the end of a line takes
the line break away.
-/

namespace EngineShell.Yaml

/-- The character that a letter after a backslash stands for. -/
def simpleEscape? (c : Char) : Option Char :=
  match c with
  | '0' => some (Char.ofNat 0)
  | 'a' => some (Char.ofNat 7)
  | 'b' => some (Char.ofNat 8)
  | 't' | '\t' => some '\t'
  | 'n' => some '\n'
  | 'v' => some (Char.ofNat 11)
  | 'f' => some (Char.ofNat 12)
  | 'r' => some '\r'
  | 'e' => some (Char.ofNat 27)
  | ' ' => some ' '
  | '"' => some '"'
  | '/' => some '/'
  | '\\' => some '\\'
  | 'N' => some (Char.ofNat 0x85)
  | '_' => some (Char.ofNat 0xA0)
  | 'L' => some (Char.ofNat 0x2028)
  | 'P' => some (Char.ofNat 0x2029)
  | _ => none

/-- The number of digits of a code point after a letter. -/
def codeWidth? (c : Char) : Option Nat :=
  if c == 'x' then some 2 else if c == 'u' then some 4 else if c == 'U' then some 8 else none

/-- The character with a code point, if there is one. -/
def charOf? (n : Nat) : Option Char :=
  if n < 0xD800 ∨ (0xDFFF < n ∧ n < 0x110000) then some (Char.ofNat n) else none

/-- The character after a backslash, and how many characters stand for it. -/
def readEscape : List Char → Option (Char × Nat)
  | [] => none
  | c :: cs =>
    match codeWidth? c with
    | some width =>
      let digits := cs.take width
      if digits.length = width then
        (readBase 16 digits).bind charOf? |>.map fun d => (d, width + 1)
      else none
    | none => (simpleEscape? c).map fun d => (d, 1)

/-- The characters up to the next blank, line break, closing quote or escaped line break. -/
def quotedRun (d : Dialect) (quote : Char) : Nat → Place → Option (List Char × Place)
  | 0, _ => none
  | fuel + 1, p =>
    match p.rest with
    | [] => some ([], p)
    | c :: cs =>
      let add (c : Char) (used : Nat) : Option (List Char × Place) :=
        (quotedRun d quote fuel (p.skipOver d ((c :: cs).take used))).map fun (text, q) =>
          (c :: text, q)
      if d.atGap (c :: cs) then some ([], p)
      else if c == quote then
        if c == '\'' && cs.head? == some '\'' then add c 2 else some ([], p)
      else if c == '\\' && quote == '"' then
        if cs.head?.any d.isBreak then some ([], p)
        else (readEscape cs).bind fun (e, used) => add e (used + 1)
      else add c 1

/-- The place after the line breaks within a quoted text, and what they read as. A document mark
is a fault there. In an edited text so is a line that is not deep enough. -/
def quotedBreaks (d : Dialect) (depth : Int) (first : List Char) (p : Place) :
    Option (List Char × Place) :=
  let limit := if d = .edited then depth else 0
  (skipGaps d limit (fun _ => none) (p.rest.length + 1) p).bind fun (more, q) =>
    if q.atDocumentMark d || decide (q.column < limit) then none
    else some (foldBreaks first more, q)

/-- The inside of a quoted text, up to the closing quote. -/
def quotedText (d : Dialect) (depth : Int) (quote : Char) : Nat → Place → Option (List Char × Place)
  | 0, _ => none
  | fuel + 1, p =>
    (quotedRun d quote (p.rest.length + 1) p).bind fun (run, q) =>
      let goOn (gap : List Char × Place) : Option (List Char × Place) :=
        (quotedText d depth quote fuel gap.2).map fun (text, last) => (run ++ gap.1 ++ text, last)
      if q.sees quote then some (run, q.skip d)
      else if q.sees '\\' then
        let next := (q.skip d).skipBreak d
        if next.sees quote then some (run, next.skip d)
        else (quotedBreaks d depth [] next).bind goOn
      else
        let blanks := q.rest.takeWhile isBlank
        let next := q.skipOver d blanks
        if next.atEnd then none
        else if next.atBreak d then
          (quotedBreaks d depth next.breakText (next.skipBreak d)).bind goOn
        else goOn (blanks, next)

def readQuoted (d : Dialect) (depth : Int) (p : Place) : Option (List Char × Place) :=
  match p.rest with
  | [] => none
  | quote :: cs => quotedText d depth quote (cs.length + 1) (p.skip d)

end EngineShell.Yaml
