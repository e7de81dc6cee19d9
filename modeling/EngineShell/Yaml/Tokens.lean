import EngineShell.Yaml.Block
import EngineShell.Yaml.Quoted
import EngineShell.Yaml.Token
import EngineShell.Yaml.Unquoted

/-!
# The tokens of a text

One function for each kind of token, and the choice between them by the characters that follow.
Anchors, aliases, tags and directives are not taken.
-/

namespace EngineShell.Yaml

/-- The place of the next token of a stored text. A byte order mark may start a line, and tabs are
taken for blanks only where no key may start. -/
def storedContent (inFlow : Bool) : Nat → Bool → Place → Option Place
  | 0, _, _ => none
  | fuel + 1, tabs, p =>
    let p := if p.column = 0 && p.rest.head?.any (·.toNat == 0xFEFF) then p.skip .stored else p
    let q := (p.skipWhile .stored fun c => c == ' ' || (tabs && c == '\t')).skipComment .stored
    if q.atBreak .stored then storedContent inFlow fuel inFlow (q.skipBreak .stored) else some q

/-- The place of the next token of an edited text. Nothing but a comment may follow a tab that
stands left of the column `limit`. -/
def editedContent (limit : Int) : Nat → Place → Option Place
  | 0, _ => none
  | fuel + 1, p =>
    if p.sees '\t' && p.fresh && decide (p.column < limit) then
      (p.skipApart? .edited).bind fun (_, q) =>
        if Dialect.edited.atLineEnd q.rest then editedContent limit fuel q else none
    else if p.rest.head?.any isBlank then editedContent limit fuel (p.skip .edited)
    else if p.atBreak .edited then editedContent limit fuel (p.skipBreak .edited)
    else if p.sees '#' then editedContent limit fuel (p.skipComment .edited)
    else some p

/-- The place after spaces, line breaks and comments of an edited text. -/
def skipSpaced : Nat → Place → Option Place
  | 0, _ => none
  | fuel + 1, p =>
    if p.sees ' ' then skipSpaced fuel (p.skip .edited)
    else if p.atBreak .edited then skipSpaced fuel (p.skipBreak .edited)
    else if p.sees '#' then skipSpaced fuel (p.skipComment .edited)
    else some p

namespace Layout

/-- Move on to the next token. Where a line ends in block style, a key may follow. -/
def toContent (d : Dialect) (s : Layout) : Option Layout :=
  let fuel := s.place.rest.length + 1
  let place := match d with
    | .stored => storedContent s.inFlow fuel (s.inFlow || !s.keyAllowed) s.place
    | .edited => editedContent s.depth fuel s.place
  place.map fun place => { s with
    place
    keyAllowed := s.keyAllowed || (!s.inFlow && s.place.line < place.line) }

/-- In an edited text, skip the blanks and the comment behind a token. -/
def apart (d : Dialect) (s : Layout) : Option Layout :=
  match d with
  | .stored => some s
  | .edited => (s.place.skipApart? d).map fun r => { s with place := r.2 }

/-- The end of the text: all parts end. -/
def finish (s : Layout) : Option (List Token) :=
  (s.leave (-1)).dropCandidate.map fun s => s.tokens.reverse

/-- A document mark. Nothing but a comment may follow the mark of an end in an edited text. -/
def documentMark (d : Dialect) (t : Token) (s : Layout) : Option Layout := do
  let s ← (s.leave (-1)).dropCandidate
  let s := { s with keyAllowed := false, place := s.place.skipOver d ['-', '-', '-'] }.emit t
  if d = .edited && t = .documentEnd then
    (s.apart d).filter fun s => d.atLineEnd s.place.rest
  else some s

/-- A bracket or brace that opens. -/
def openFlow (d : Dialect) (t : Token) (s : Layout) : Option Layout := do
  let s ← ((← s.markCandidate d).soften d).enterFlow d
  let s := { s with keyAllowed := true, metMap := s.metMap || t = Token.flowMapStart }
  ((s.skip d).emit t).apart d

/-- A bracket or brace that closes. -/
def closeFlow (d : Dialect) (t : Token) (s : Layout) : Option Layout := do
  let s := (← s.dropCandidate).leaveFlow
  let s := { s with keyAllowed := false }
  let s ← ((s.endPair.skip d).emit t).apart d
  return if s.inFlow then { s with adjacent := s.place.offset } else s

def comma (d : Dialect) (s : Layout) : Option Layout := do
  let s := { ← s.dropCandidate with keyAllowed := true }
  ((s.endPair.skip d).emit .comma).apart d

/-- Whether a hyphen stands here as the mark of an item. -/
def atItem (d : Dialect) (p : Place) : Bool :=
  d.hasMark ['-'] p.rest

/-- The mark of an item of a list in block style. In an edited text the item has to be deeper if it
does not follow on the same line, and no tab may stand between two such marks. -/
def item (d : Dialect) (s : Layout) : Option Layout :=
  if s.inFlow then none
  else if !s.keyAllowed then none
  else
    let column := s.place.column
    match d with
    | .stored => do
      let s ← (s.start column s.tokens.length .listStart).dropCandidate
      return ({ s with keyAllowed := true }.skip d).emit .item
    | .edited => do
      let s := (s.skip d).start column s.tokens.length .listStart
      let (blanks, place) ← s.place.skipApart? d
      if blanks.contains '\t' && atItem d place then none
      let s := { s with place }
      let s := if place.atBreak d || place.rest.head?.any isFlowMark then s.soften d else s
      return { ← s.dropCandidate with keyAllowed := true }.emit .item

/-- The mark of a key. An edited text has a space or a line break after it, but no tab. -/
def keyMark (d : Dialect) (s : Layout) : Option Layout := do
  if !s.inFlow && !s.keyAllowed then none
  let s ← (s.start s.place.column s.tokens.length .mapStart).dropCandidate
  let s := { s with keyAllowed := !s.inFlow, metMap := s.metMap || s.inFlow }.skip d
  match d with
  | .stored => return s.emit .key
  | .edited =>
    if !(s.place.sees ' ' || s.place.atBreak d) then none
    let place ← skipSpaced (s.place.rest.length + 1) s.place
    if place.sees '\t' then none
    return { s with place }.emit .key

/-- Whether a character may not follow the tabs behind a colon in an edited text. -/
def startsWord (c : Char) : Bool :=
  c.isAlphanum || c == '_' || c == '-'

/-- Skip the tabs behind a colon in an edited text. -/
def tabsAfterColon (d : Dialect) (s : Layout) : Option Layout :=
  if d = .edited && s.place.sees '\t' then
    (s.place.skipApart? d).bind fun (blanks, place) =>
      if !blanks.contains ' ' && place.rest.head?.any startsWord then none
      else some { s with place }
  else some s

/-- The mark of a value. What stood before it turns out to be a key, if it was a candidate. In a
list in flow style of an edited text, a pair starts with it. -/
def valueMark (d : Dialect) (s : Layout) : Option Layout := do
  let pair := d = .edited && s.inFlow && !s.metMap
  let { line, column, .. } := s.place
  let s ← { s with atPair := pair }.skip d |>.tabsAfterColon d
  match s.candidate with
  | some c =>
    let s := s.insert c.before .key
    if pair && c.line < line then none
    let s := if pair then s.insert c.before .flowMapStart else s
    let s := (s.start c.column c.before .mapStart).soften d
    return { s with candidate := none, keyAllowed := false }.emit .value
  | none =>
    let s := if pair then s.emit .flowMapStart else s
    if !s.inFlow && !s.keyAllowed then none
    let s := (s.start column s.tokens.length .mapStart).soften d
    return { s with keyAllowed := !s.inFlow }.emit .value

def block (d : Dialect) (s : Layout) : Option Layout := do
  let s ← match d with
    | .stored => s.dropCandidate
    | .edited => (s.markCandidate d).map harden
  let (text, place) ← readBlock d s.depth s.place
  return { s with keyAllowed := true, place }.emit (.scalar false text)

/-- What may follow a quoted text on its line in an edited text: the end of the line, a colon, or
in flow style a mark that goes on or closes. -/
def endsQuoted (d : Dialect) (inFlow : Bool) (before after : Place) : Bool :=
  d.atLineEnd after.rest || (after.sees ':' && (inFlow || before.line == after.line)) ||
    (inFlow && (after.sees ',' || after.sees ']' || after.sees '\x7d'))

def quoted (d : Dialect) (s : Layout) : Option Layout := do
  let before := s.place
  let s := { ← s.markCandidate d with keyAllowed := false }
  let (text, place) ← readQuoted d s.depth s.place
  let token := Token.scalar false text
  let s := { s with place }
  match d with
  | .stored => return s.emit token
  | .edited =>
    let s ← s.apart d
    if !endsQuoted d s.inFlow before s.place then none
    let s ← s.toContent d
    return { s with adjacent := s.place.offset }.emit token

/-- A plain text. After one that ends a line a key may follow. -/
def plain (d : Dialect) (s : Layout) : Option Layout := do
  let s := { ← s.markCandidate d with keyAllowed := false }.harden
  let (text, place) ← readPlain d s.inFlow s.depth s.place
  return { s with place, keyAllowed := place.fresh }.emit (.scalar true text)

def atKeyMark (d : Dialect) (s : Layout) : Bool :=
  d.hasMark ['?'] s.place.rest || (d = .stored && s.inFlow && s.place.sees '?')

/-- Whether a mark of a value stands here. In flow style a stored text takes every colon for one,
an edited text those before a mark and those right behind a quoted text or a closing mark. -/
def atValueMark (d : Dialect) (s : Layout) : Bool :=
  let loose := match d with
    | .stored => true
    | .edited => s.place.rest.tail.head?.any isFlowMark || s.place.offset == s.adjacent
  s.place.sees ':' && (d.atGap s.place.rest.tail || (s.inFlow && loose))

/-- Whether a plain text may start with a character that is no mark here. A question mark and a
colon may in block style and, in an edited text, in flow style; so may the bar and the angle. -/
def startsPlain (d : Dialect) (inFlow : Bool) (c : Char) : Bool :=
  if c == '?' || c == ':' then d == .edited || !inFlow
  else if c == '|' || c == '>' then d == .edited
  else !"#&*!%@`".toList.contains c

/-- Read the next token. -/
def token (d : Dialect) (s : Layout) : Option Layout :=
  let p := s.place
  match p.rest with
  | [] => none
  | c :: cs =>
    if p.column = 0 && c == '%' then none
    else if p.atDocumentMark d then
      s.documentMark d (if c == '-' then .documentStart else .documentEnd)
    else if d = .edited && decide (p.column < s.depth) then none
    else if c == '[' then s.openFlow d .flowListStart
    else if c == '\x7b' then s.openFlow d .flowMapStart
    else if c == ']' then s.closeFlow d .flowListEnd
    else if c == '\x7d' then s.closeFlow d .flowMapEnd
    else if c == ',' then s.comma d
    else if atItem d p then s.item d
    else if s.atKeyMark d then s.keyMark d
    else if s.atValueMark d then s.valueMark d
    else if (c == '|' || c == '>') && !s.inFlow then s.block d
    else if c == '\'' || c == '"' then s.quoted d
    else if startsPlain d s.inFlow c && !d.atGap (c :: cs) then s.plain d
    else none

def readAll (d : Dialect) : Nat → Layout → Option (List Token)
  | 0, _ => none
  | fuel + 1, s => do
    let s ← (← s.toContent d).expire d
    let s := s.leave s.place.column
    if s.place.atEnd then s.finish else readAll d fuel (← s.token d)

end Layout

def tokensOf (d : Dialect) (cs : List Char) : Option (List Token) :=
  if cs.all d.allows then Layout.readAll d (cs.length + 1) { place := { rest := cs } } else none

end EngineShell.Yaml
