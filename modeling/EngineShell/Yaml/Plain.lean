import EngineShell.Decimal.Reading

/-!
# Plain scalars

Which plain scalars stand for nothing, a truth value or a number rather than for their text. Whole
numbers have at most 128 bits, and numbers with a leading zero are texts. `isTyped` decides both
what a reader makes of a plain scalar and what a writer has to put between quotes.
-/

namespace EngineShell.Yaml

/-- The words that stand for nothing. -/
def nullWords : List String :=
  ["", "~", "null", "Null", "NULL"]

def boolWords : List String :=
  ["true", "True", "TRUE", "false", "False", "FALSE"]

/-- The words that stand for infinity, apart from a sign, and for what is not a number. -/
def infinityWords : List String :=
  [".inf", ".Inf", ".INF"]

def nanWords : List String :=
  [".nan", ".NaN", ".NAN"]

/-- The value of a digit in a base up to sixteen. -/
def digitIn? (base : Nat) (c : Char) : Option Nat :=
  let v :=
    if '0' ≤ c ∧ c ≤ '9' then some (c.toNat - 48)
    else if 'a' ≤ c ∧ c ≤ 'f' then some (c.toNat - 87)
    else if 'A' ≤ c ∧ c ≤ 'F' then some (c.toNat - 55)
    else none
  v.filter (· < base)

/-- A number in a base, of at least one digit and nothing else. -/
def readBase (base : Nat) (cs : List Char) : Option Nat :=
  if cs.isEmpty then none
  else cs.foldlM (fun n c => (digitIn? base c).map (base * n + ·)) 0

/-- The base that a number's first two characters announce, and the digits after them. -/
def cutBase : List Char → Nat × List Char
  | '0' :: 'x' :: cs => (16, cs)
  | '0' :: 'o' :: cs => (8, cs)
  | '0' :: 'b' :: cs => (2, cs)
  | cs => (10, cs)

/-- A zero, maybe after a sign, that further digits follow. -/
def hasLeadingZero (cs : List Char) : Bool :=
  match (Decimal.cutSign cs).2 with
  | '0' :: c :: cs => (c :: cs).all Char.isDigit
  | _ => false

/-- The whole number that a plain scalar is: whether it has a minus sign, and its magnitude. -/
def readInteger (cs : List Char) : Option (Bool × Nat) :=
  let (negative, rest) := Decimal.cutSign cs
  let (base, digits) := cutBase rest
  let fits (n : Nat) : Bool := if negative then n ≤ Nat.pow 2 127 else n < Nat.pow 2 128
  ((readBase base digits).filter fun n => !hasLeadingZero cs && fits n).map fun n => (negative, n)

/-- Whether a plain scalar is a whole number of more than 64 bits. -/
def isWide (cs : List Char) : Bool :=
  (readInteger cs).any fun (negative, n) =>
    if negative then Nat.pow 2 63 < n else Nat.pow 2 64 ≤ n

/-- Whether a plain scalar is a decimal fraction within the range of 64-bit numbers, or stands
for infinity or for what is not a number. -/
def isFraction (cs : List Char) : Bool :=
  let word := String.ofList cs
  let unsigned := String.ofList (Decimal.cutSign cs).2
  infinityWords.contains unsigned || nanWords.contains word ||
    (!hasLeadingZero cs && (Decimal.readFraction cs).any Binary64.isFinite)

/-- Whether a plain scalar stands for something else than its text. -/
def isTyped (cs : List Char) : Bool :=
  let word := String.ofList cs
  nullWords.contains word || boolWords.contains word || (readInteger cs).isSome ||
    isFraction cs

/-- Whether a text would not read back as itself, or look like a number, if it were written
plain. -/
def needsQuotes (cs : List Char) : Bool :=
  isTyped cs || hasLeadingZero cs

end EngineShell.Yaml
