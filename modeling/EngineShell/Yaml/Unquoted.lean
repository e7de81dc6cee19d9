import EngineShell.Yaml.Place

/-!
# Reading plain texts

Plain texts stand without quotes. A colon before a gap, a comment after a blank and, in flow
style, the marks of that style end them. In block style they go on over the lines that are deep
enough.
-/

namespace EngineShell.Yaml

/-- The characters up to the next blank, line break, or mark that ends a plain text. In flow style
a stored text may not have a colon right before a mark. -/
def plainRun (d : Dialect) (flow : Bool) : List Char → Option (List Char)
  | [] => some []
  | c :: cs =>
    let beforeMark := c == ':' && flow && cs.head?.any isFlowMark
    if c == ':' && flow && d == .stored && cs.head?.any (fun e => isFlowMark e || e == '?') then
      none
    else if
      d.atGap (c :: cs) || (c == ':' && d.atGap cs) || beforeMark || (flow && isFlowMark c) then
      some []
    else (plainRun d flow cs).map (c :: ·)

/-- What becomes of a tab that stands too far left on a later line. It is a fault in a stored text.
In an edited text nothing but a comment may follow on its line. -/
def plainTab (d : Dialect) (p : Place) : Option Place :=
  match d with
  | .stored => none
  | .edited =>
    (p.skipApart? d).bind fun (_, q) =>
      if !d.atLineEnd q.rest then none
      else if q.fresh then some q
      else some (q.skipBreak d)

/-- A plain text and the place after it and after the gaps that follow. The lines after the first
have to reach the column `limit` unless the text stands in flow style. -/
def plainText (d : Dialect) (flow : Bool) (limit : Int) : Nat → Place → Option (List Char × Place)
  | 0, _ => none
  | fuel + 1, p =>
    if p.atDocumentMark d || p.sees '#' then some ([], p)
    else if d == .edited && flow && p.sees '-' && p.rest.tail.head?.any isFlowMark then none
    else
      (plainRun d flow p.rest).bind fun run =>
        let q := p.skipOver d run
        let blanks := q.rest.takeWhile isBlank
        let next := q.skipOver d blanks
        let goOn (gap : List Char) (place : Place) : Option (List Char × Place) :=
          (plainText d flow limit fuel place).map fun (text, last) =>
            (if text.isEmpty then run else run ++ gap ++ text, last)
        if next.atBreak d then
          let first := next.breakText
          let start := next.skipBreak d
          (skipGaps d limit (plainTab d) (start.rest.length + 1) start).bind fun (more, place) =>
            if !flow && decide (place.column < limit) then some (run, place)
            else goOn (foldBreaks first more) place
        else if blanks.isEmpty then some (run, q)
        else goOn blanks next

/-- A plain text within a part at a depth. It is never empty. -/
def readPlain (d : Dialect) (flow : Bool) (depth : Int) (p : Place) : Option (List Char × Place) :=
  if d = .edited && flow && decide (p.column < depth + 1) then none
  else
    (plainText d flow (depth + 1) (p.rest.length + 1) p).filter fun r => !r.1.isEmpty

end EngineShell.Yaml
