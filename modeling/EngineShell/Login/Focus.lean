import EngineShell.Credentials
import EngineShell.Text.Search

/-!
# Focus after an error

Which field of the form an error message is about: the field that a word of the message points
to, else the first empty field.
-/

namespace EngineShell.Login

/-- The words that point to a field, the field that is looked for first in front. No letter
outside ASCII has a lower-case form that completes one of them, so it is enough to lower the
ASCII capitals of a message. -/
def fieldWords : List (Field × List String) :=
  [(.username, ["user"]),
    (.secret, ["password", "secret", "credential"]),
    (.repository, ["repository", "repo", "locator", "host", "port", "group"])]

def mentions (message : String) (words : List String) : Bool :=
  words.any fun w => Text.occurs w.toList (Text.lower message.toList)

def firstEmpty? (fields : Credentials) : Option Field :=
  Field.all.find? fun f => (fields.field f).isEmpty

/-- The field that should get the focus after this error. -/
def focusFor? (message : String) (fields : Credentials) : Option Field :=
  match fieldWords.find? fun (_, words) => mentions message words with
  | some (field, _) => some field
  | none => firstEmpty? fields

end EngineShell.Login
