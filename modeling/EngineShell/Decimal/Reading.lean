import EngineShell.Decimal.Binary64
import EngineShell.Text.Search

/-!
# Reading decimal fractions

A decimal fraction has at most one sign, digits with at most one point among or beside them, and
at most one exponent after a letter e.
-/

namespace EngineShell.Decimal

/-- The digits a text starts with, and the rest. -/
def spanDigits (cs : List Char) : List Char × List Char :=
  (cs.takeWhile Char.isDigit, cs.dropWhile Char.isDigit)

/-- The sign a text starts with, and the rest. -/
def cutSign : List Char → Bool × List Char
  | '-' :: cs => (true, cs)
  | '+' :: cs => (false, cs)
  | cs => (false, cs)

def readExponent : List Char → Option Int
  | [] => some 0
  | c :: cs => if c = 'e' ∨ c = 'E' then Text.readInt cs else none

/-- The fraction after the sign. -/
def readUnsigned (negative : Bool) (cs : List Char) : Option Binary64 :=
  let (whole, rest) := spanDigits cs
  let (part, rest) := match rest with
    | '.' :: rest => spanDigits rest
    | _ => ([], rest)
  (Text.readNat (whole ++ part)).bind fun digits =>
    (readExponent rest).map fun e => .ofDecimal negative digits (e - part.length)

def readFraction (cs : List Char) : Option Binary64 :=
  let (negative, cs) := cutSign cs
  readUnsigned negative cs

/-- A decimal fraction, or one of the words for infinity and for what is not a number, in any
case. -/
def readNumber (cs : List Char) : Option Binary64 :=
  let (negative, rest) := cutSign cs
  let word := String.ofList (Text.lower rest)
  if word = "inf" ∨ word = "infinity" then some (.infinite negative)
  else if word = "nan" then some .nan
  else readUnsigned negative rest

end EngineShell.Decimal
