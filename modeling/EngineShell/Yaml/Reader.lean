import EngineShell.Yaml.Tokens
import EngineShell.Yaml.Tree

/-!
# Reading YAML

A text holds at most one document, of mappings, lists and scalars in block and flow style.
-/

namespace EngineShell.Yaml

/-- The part of a text that is read. An edited text may start with a byte order mark, and it ends
with its first null character. -/
def Dialect.readable (d : Dialect) (cs : List Char) : List Char :=
  match d with
  | .stored => cs
  | .edited =>
    (if cs.head?.any (·.toNat == 0xFEFF) then cs.tail else cs).takeWhile fun c => c.toNat != 0

/-- The root of the document in a text. The outer answer is missing if the text is malformed or
holds several documents, the inner one if it holds none. -/
def read (d : Dialect) (text : String) : Option (Option Node) :=
  (tokensOf d (d.readable text.toList)).bind (readDocument d)

end EngineShell.Yaml
