import EngineShell.Yaml.Token

/-!
# Documents from tokens

The tree of a document from its tokens. A part that is missing stands for nothing. A value without
a key before it counts in edited texts only.
-/

namespace EngineShell.Yaml

/-- Whether the next token is one of these. -/
def sees (ts : List Token) (kinds : List Token) : Bool :=
  ts.head?.any kinds.contains

mutual

/-- A part. One in block style is taken where `block` says so, and a list that stands no deeper
than its key where `level` does. -/
def readNode (d : Dialect) : Nat → Bool → Bool → List Token → Option (Node × List Token)
  | 0, _, _, _ => none
  | fuel + 1, block, level, ts =>
    match ts with
    | .scalar plain text :: rest => some (.scalar plain text, rest)
    | .flowListStart :: rest => readFlowList d fuel true rest []
    | .flowMapStart :: rest => readFlowMap d fuel true rest []
    | .item :: _ => if level then readLevelList d fuel ts [] else none
    | .listStart :: rest => if block then readList d fuel rest [] else none
    | .mapStart :: rest => if block then readMap d fuel rest [] else none
    | _ => none

/-- A part in block style, or nothing before one of these tokens. -/
def readOptional (d : Dialect) : Nat → Bool → List Token → List Token →
    Option (Node × List Token)
  | 0, _, _, _ => none
  | fuel + 1, level, ends, ts =>
    if sees ts ends then some (.empty, ts) else readNode d fuel true level ts

/-- A part in flow style, or nothing before one of these tokens. -/
def readFlowOptional (d : Dialect) : Nat → List Token → List Token → Option (Node × List Token)
  | 0, _, _ => none
  | fuel + 1, ends, ts =>
    if sees ts ends then some (.empty, ts) else readNode d fuel false false ts

/-- The items of a list that is deeper than the part that it stands in. -/
def readList (d : Dialect) : Nat → List Token → List Node → Option (Node × List Token)
  | 0, _, _ => none
  | fuel + 1, ts, items =>
    match ts with
    | .item :: rest =>
      (readOptional d fuel false [.item, .partEnd] rest).bind fun (n, rest) =>
        readList d fuel rest (n :: items)
    | .partEnd :: rest => some (.list items.reverse, rest)
    | _ => none

/-- The items of a list that stands no deeper than its key. -/
def readLevelList (d : Dialect) : Nat → List Token → List Node → Option (Node × List Token)
  | 0, _, _ => none
  | fuel + 1, ts, items =>
    match ts with
    | .item :: rest =>
      (readOptional d fuel false [.item, .key, .value, .partEnd] rest).bind fun (n, rest) =>
        readLevelList d fuel rest (n :: items)
    | _ => some (.list items.reverse, ts)

/-- The entries of a mapping in block style. -/
def readMap (d : Dialect) : Nat → List Token → List (Node × Node) → Option (Node × List Token)
  | 0, _, _ => none
  | fuel + 1, ts, entries =>
    let ends : List Token := [.key, .value, .partEnd]
    let withKey (key : Node) (ts : List Token) : Option (Node × List Token) :=
      let value := match ts with
        | .value :: rest => readOptional d fuel true ends rest
        | _ => some (.empty, ts)
      value.bind fun (value, rest) => readMap d fuel rest ((key, value) :: entries)
    match ts with
    | .key :: rest => (readOptional d fuel true ends rest).bind fun (key, rest) => withKey key rest
    | .value :: _ => if d = .edited then withKey .empty ts else none
    | .partEnd :: rest => some (.map entries.reverse, rest)
    | _ => none

/-- The value after a key in flow style. -/
def readFlowValue (d : Dialect) : Nat → Token → List Token → Option (Node × List Token)
  | 0, _, _ => none
  | fuel + 1, close, ts =>
    match ts with
    | .value :: rest => readFlowOptional d fuel [.comma, close] rest
    | _ => some (.empty, ts)

/-- The items of a list in flow style. A marked key is a pair; a token that ends the pair in place
of its key is lost. -/
def readFlowList (d : Dialect) : Nat → Bool → List Token → List Node → Option (Node × List Token)
  | 0, _, _, _ => none
  | fuel + 1, first, ts, items =>
    let next := match first, ts with
      | true, _ => some ts
      | false, .comma :: rest => some rest
      | false, _ => if sees ts [.flowListEnd] then some ts else none
    next.bind fun ts =>
      match ts with
      | .flowListEnd :: rest => some (.list items.reverse, rest)
      | .key :: rest =>
        let ends : List Token := [.value, .comma, .flowListEnd]
        (readFlowOptional d fuel ends rest).bind fun (key, last) =>
          let after := if sees rest ends then last.tail else last
          (readFlowValue d fuel .flowListEnd after).bind fun (value, rest) =>
            readFlowList d fuel false rest (.map [(key, value)] :: items)
      | _ => (readNode d fuel false false ts).bind fun (n, rest) =>
          readFlowList d fuel false rest (n :: items)

/-- The entries of a mapping in flow style. -/
def readFlowMap (d : Dialect) :
    Nat → Bool → List Token → List (Node × Node) → Option (Node × List Token)
  | 0, _, _, _ => none
  | fuel + 1, first, ts, entries =>
    let withKey (key : Node) (ts : List Token) : Option (Node × List Token) :=
      (readFlowValue d fuel .flowMapEnd ts).bind fun (value, rest) =>
        readFlowMap d fuel false rest ((key, value) :: entries)
    let next := match first, ts with
      | true, _ => some ts
      | false, .comma :: rest => some rest
      | false, _ => if sees ts [.flowMapEnd] then some ts else none
    next.bind fun ts =>
      match ts with
      | .flowMapEnd :: rest => some (.map entries.reverse, rest)
      | .key :: rest =>
        (readFlowOptional d fuel [.value, .comma, .flowMapEnd] rest).bind fun (key, rest) =>
          withKey key rest
      | .value :: _ => if d = .edited then withKey .empty ts else none
      | _ => (readNode d fuel false false ts).bind fun (key, rest) =>
          readFlowMap d fuel false rest ((key, .empty) :: entries)

end

/-- Leave out the marks of ends of documents. -/
def dropEnds (ts : List Token) : List Token :=
  ts.dropWhile (· == .documentEnd)

/-- The root of the only document, if there is one. The outer answer is missing if the tokens make
no document, or several. An edited text may start with marks of ends. -/
def readDocument (d : Dialect) (ts : List Token) : Option (Option Node) :=
  let start := match d with
    | .stored => ts
    | .edited => dropEnds ts
  let fuel := 4 * start.length + 4
  let root := match start with
    | [] => some (none, [])
    | .documentStart :: rest =>
      if rest.isEmpty || sees rest [.documentStart, .documentEnd] then some (some Node.empty, rest)
      else (readNode d fuel true false rest).map fun (n, rest) => (some n, rest)
    | ts => (readNode d fuel true false ts).map fun (n, rest) => (some n, rest)
  root.bind fun (node, rest) => if (dropEnds rest).isEmpty then some node else none

end EngineShell.Yaml
