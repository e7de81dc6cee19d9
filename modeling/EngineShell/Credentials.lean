import EngineShell.Text.Quoted

/-!
# Credentials

The three texts of the login form, and their printed form, which shows the user name and the
repository but never the secret.
-/

namespace EngineShell

/-- What the login form collects. Any text is allowed in any field. -/
structure Credentials where
  username : String := ""
  secret : String := ""
  repository : String := ""
  deriving DecidableEq, Repr, Inhabited

/-- A field of the login form. -/
inductive Field where
  | username
  | secret
  | repository
  deriving DecidableEq, Repr

namespace Field

def all : List Field :=
  [username, secret, repository]

def name : Field → String
  | username => "username"
  | secret => "secret"
  | repository => "repository"

end Field

namespace Credentials

def field (c : Credentials) : Field → String
  | .username => c.username
  | .secret => c.secret
  | .repository => c.repository

/-- The text that stands for every secret. -/
def redaction : String :=
  "<redacted>"

/-- The printed form, the same for every secret. -/
def debugText (c : Credentials) : String :=
  "Credentials \x7b username: " ++ Text.quote c.username ++ ", secret: " ++ Text.quote redaction ++
    ", repository: " ++ Text.quote c.repository ++ " \x7d"

end Credentials

end EngineShell
