import EngineShell.Text.Number

/-!
# Binary numbers of 64 bits

The numbers of the binary format with 53 bits of precision, kept as a mantissa and an exponent of
two, and the rounding of a decimal number to the nearest of them. All of it is exact arithmetic on
whole numbers.
-/

namespace EngineShell

/-- A number of the format. A finite one is `mantissa * 2 ^ exponent`, up to its sign. -/
inductive Binary64 where
  | finite (negative : Bool) (mantissa : Nat) (exponent : Int)
  | infinite (negative : Bool)
  | nan
  deriving DecidableEq, Repr

namespace Binary64

def pow2 (k : Nat) : Nat :=
  Nat.pow 2 k

def pow10 (k : Nat) : Nat :=
  Nat.pow 10 k

/-- The least exponent of a finite number. -/
def minExponent : Int := -1074

/-- The greatest exponent of a finite number. -/
def maxExponent : Int := 971

/-- The quotient rounded to the nearest whole number, a tie to the even one. -/
def roundHalfEven (n d : Nat) : Nat :=
  let q := n / d
  let r := n % d
  if 2 * r < d then q
  else if d < 2 * r then q + 1
  else if q % 2 = 0 then q else q + 1

/-- The quotient `n / (d * 2 ^ e)` as a pair of whole numbers. -/
def scaled (n d : Nat) (e : Int) : Nat × Nat :=
  (n * pow2 (-e).toNat, d * pow2 e.toNat)

/-- The exponent at which the quotient of two positive numbers has 53 bits before the point. -/
def exponentOf (n d : Nat) : Int :=
  let e := (n.log2 : Int) - d.log2 - 53
  let (a, b) := scaled n d e
  max (if a / b < pow2 53 then e else e + 1) minExponent

/-- The number nearest to a quotient. -/
def ofQuotient (negative : Bool) (n d : Nat) : Binary64 :=
  if n = 0 then .finite negative 0 minExponent
  else
    let e := exponentOf n d
    let (a, b) := scaled n d e
    let m := roundHalfEven a b
    let (m, e) := if m = pow2 53 then (pow2 52, e + 1) else (m, e)
    if maxExponent < e then .infinite negative else .finite negative m e

/-- The number nearest to `digits * 10 ^ exponent`. What lies beyond the range by several powers
of ten is settled without computing the power. -/
def ofDecimal (negative : Bool) (digits : Nat) (exponent : Int) : Binary64 :=
  let top := (Text.decimal digits).length + exponent
  if digits = 0 ∨ top < -330 then .finite negative 0 minExponent
  else if 320 < top then .infinite negative
  else ofQuotient negative (digits * pow10 exponent.toNat) (pow10 (-exponent).toNat)

def isFinite : Binary64 → Bool
  | finite .. => true
  | _ => false

/-- Whether the number differs from zero. -/
def isNonzero : Binary64 → Bool
  | finite _ m _ => m != 0
  | _ => true

/-- The nearest integer, a half rounded away from zero, and kept within 64 bits. What is not a
number becomes zero. -/
def toInt64 (x : Binary64) : Int :=
  match x with
  | nan => 0
  | infinite negative => if negative then -0x8000000000000000 else 0x7FFFFFFFFFFFFFFF
  | finite negative m e =>
    let (a, b) := scaled m 1 (-e)
    let i := (2 * a + b) / (2 * b)
    if negative then max (-(i : Int)) (-0x8000000000000000) else min (i : Int) 0x7FFFFFFFFFFFFFFF

end Binary64

end EngineShell
