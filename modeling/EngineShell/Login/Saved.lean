import EngineShell.Credentials

/-!
# What survives a restart

The record that a host saves: the fatal message if there is one, else the texts of the form.
-/

namespace EngineShell

/-- What a host saves. -/
inductive SavedRecord where
  | login (fields : Credentials)
  | fatal (message : String)
  deriving DecidableEq, Repr

/-- Stored texts for the fields of the form; `none` where nothing was stored. -/
structure Prefill where
  username : Option String := none
  secret : Option String := none
  repository : Option String := none
  deriving DecidableEq, Repr

namespace Prefill

def isEmpty (p : Prefill) : Bool :=
  p.username.isNone && p.secret.isNone && p.repository.isNone

/-- Put the stored texts into the fields and leave the others alone. -/
def applyTo (p : Prefill) (fields : Credentials) : Credentials where
  username := p.username.getD fields.username
  secret := p.secret.getD fields.secret
  repository := p.repository.getD fields.repository

end Prefill

end EngineShell
