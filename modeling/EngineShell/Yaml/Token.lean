import EngineShell.Yaml.Place

/-!
# Tokens

What a text is cut into: marks, keys, values, scalars, and the starts and ends of lists and
mappings, which in block style follow from the columns. A `Layout` holds the tokens read so far
and what decides about the next one: the depth, what may turn out to be a key, and how far flow
style is nested.
-/

namespace EngineShell.Yaml

inductive Token where
  | documentStart
  | documentEnd
  | listStart
  | mapStart
  | partEnd
  | flowListStart
  | flowListEnd
  | flowMapStart
  | flowMapEnd
  | item
  | comma
  | key
  | value
  | scalar (plain : Bool) (text : List Char)
  deriving DecidableEq

/-- A token that turns out to be a key if a colon follows. `before` counts the tokens in front of
it. In block style a key is needed wherever an entry of a mapping has to start. -/
structure KeyCandidate where
  before : Nat
  offset : Nat
  line : Nat
  column : Nat
  needed : Bool

/-- A depth that parts stand at. A depth is soft if no part has started there: it only keeps the
value of a key deeper than the key. -/
structure Depth where
  column : Int
  soft : Bool

/-- The state of reading tokens. The tokens are kept with the newest in front, and so are the
depths, and the candidates of the levels of flow style outside the innermost one. -/
structure Layout where
  place : Place
  tokens : List Token := []
  depths : List Depth := []
  keyAllowed : Bool := true
  candidate : Option KeyCandidate := none
  outer : List (Option KeyCandidate) := []
  /-- Where a value may follow its key without a gap. -/
  adjacent : Nat := 0
  /-- Whether a list in flow style is at a pair, which is a mapping without marks. -/
  atPair : Bool := false
  /-- Whether there has been a mapping in flow style that was no such pair. -/
  metMap : Bool := false

namespace Layout

/-- The depth of the innermost part. -/
def depth (s : Layout) : Int :=
  (s.depths.head?.map Depth.column).getD (-1)

def inFlow (s : Layout) : Bool :=
  !s.outer.isEmpty

def emit (s : Layout) (t : Token) : Layout :=
  { s with tokens := t :: s.tokens }

/-- Put a token behind the first few ones. -/
def insert (s : Layout) (before : Nat) (t : Token) : Layout :=
  { s with tokens := s.tokens.insertIdx (s.tokens.length - before) t }

/-- Move on by one character. -/
def skip (d : Dialect) (s : Layout) : Layout :=
  { s with place := s.place.skip d }

/-- Leave the soft depths. -/
def harden (s : Layout) : Layout :=
  { s with depths := s.depths.dropWhile Depth.soft }

/-- Make room for the value of a key in an edited text. -/
def soften (d : Dialect) (s : Layout) : Layout :=
  if d == .edited && !s.inFlow && s.depths.head?.any (!·.soft) then
    { s with depths := ⟨s.depth + 1, true⟩ :: s.depths }
  else s

/-- Start a part at a column, if it is deeper than the part that it stands in. Its token goes
behind the first `before` ones. -/
def start (s : Layout) (column : Nat) (before : Nat) (t : Token) : Layout :=
  if s.inFlow then s
  else
    let s := if s.depth ≤ column && s.depths.head?.any Depth.soft then
        { s with depths := s.depths.tail }
      else s
    if s.depth < column then
      let s := s.insert before t
      { s with depths := ⟨column, false⟩ :: s.depths }
    else s

/-- Leave the parts that are deeper than a column. -/
def leave (s : Layout) (column : Int) : Layout :=
  if s.inFlow then s
  else
    let left := s.depths.takeWhile fun depth => column < depth.column
    let ends := (left.filter (!·.soft)).map fun _ => Token.partEnd
    { s with tokens := ends ++ s.tokens, depths := s.depths.drop left.length }

/-- Give up the candidate of the innermost level. One that is needed is a fault. -/
def dropCandidate (s : Layout) : Option Layout :=
  if s.candidate.any KeyCandidate.needed then none else some { s with candidate := none }

/-- What starts here may turn out to be a key, where keys are allowed. -/
def markCandidate (d : Dialect) (s : Layout) : Option Layout :=
  if s.keyAllowed then
    let needed := !s.inFlow && s.depth = s.place.column && s.depths.head?.any (!·.soft)
    let candidate : KeyCandidate :=
      ⟨s.tokens.length, s.place.offset, s.place.line, s.place.column, needed⟩
    let cleared := if d = .stored then s.dropCandidate else some s
    cleared.map fun s => { s with candidate := some candidate }
  else some s

/-- Whether a candidate lies too far back to be a key: on an earlier line, or by more than 1024. -/
def isStale (p : Place) (c : KeyCandidate) : Bool :=
  c.line < p.line || c.offset + 1024 < p.offset

/-- Give up the candidates that lie too far back. In an edited text those in flow style stay. One
that is needed is a fault. -/
def expire (d : Dialect) (s : Layout) : Option Layout :=
  if d == .edited && s.inFlow then some s
  else
    let stale := isStale s.place
    if (s.candidate :: s.outer).any fun c => c.any fun c => stale c && c.needed then none
    else
      some { s with
        candidate := s.candidate.filter (!stale ·)
        outer := s.outer.map (Option.filter (!stale ·)) }

/-- Go down into flow style. An edited text goes down no more than 255 levels. -/
def enterFlow (d : Dialect) (s : Layout) : Option Layout :=
  if d == .edited && s.outer.length == 255 then none
  else some { s with candidate := none, outer := s.candidate :: s.outer }

/-- Come up from a level of flow style, if there is one. -/
def leaveFlow (s : Layout) : Layout :=
  match s.outer with
  | [] => s
  | candidate :: outer => { s with candidate, outer }

/-- End the pair that a list in flow style is at. -/
def endPair (s : Layout) : Layout :=
  if s.atPair then { s with atPair := false, metMap := false }.emit .flowMapEnd else s

end Layout

end EngineShell.Yaml
