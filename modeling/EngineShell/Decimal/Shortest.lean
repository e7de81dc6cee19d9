import EngineShell.Decimal.Binary64

/-!
# Shortest decimals

The decimal number with the fewest digits among those that round to a given binary number, and
among these the nearest one. A decimal number of at most 17 digits always qualifies.
-/

namespace EngineShell

/-- The decimal number `0.digits * 10 ^ point`, the digits written out. -/
structure Decimal where
  digits : List Char
  point : Int
  deriving DecidableEq, Repr

namespace Decimal

/-- The number of decimal places before the point of a positive quotient; zero or less if the
quotient is below one. -/
def places (n d : Nat) : Int :=
  if d ≤ n then (Text.decimal (n / d)).length
  else 1 - (Text.decimal ((d + n - 1) / n - 1)).length

/-- The multiple of a grid next to `v`, if one lies between `low` and `high`. The ends count if
`closed` says so, and of two multiples equally near the greater one is taken. -/
def nearest? (low v high grid : Nat) (closed : Bool) : Option Nat :=
  let inside (x : Nat) : Bool :=
    if closed then low ≤ x && x ≤ high else low < x && x < high
  let a := v / grid
  let down := inside (a * grid)
  let up := inside ((a + 1) * grid)
  if up && (!down || grid ≤ 2 * (v % grid)) then some (a + 1)
  else if down then some a
  else none

/-- The shortest decimal for `m * 2 ^ e`, tried with `count` digits and then with more, up to
`count + fuel`. Distances are counted in quarters of the binary unit. -/
def search (m : Nat) (e point : Int) : Nat → Nat → Decimal
  | 0, _ => ⟨[], point⟩
  | fuel + 1, count =>
    let k := point - count
    let unit := Binary64.pow2 (e - 2).toNat * Binary64.pow10 (-k).toNat
    let grid := Binary64.pow10 k.toNat * Binary64.pow2 (2 - e).toNat
    let below := if m = Binary64.pow2 52 ∧ Binary64.minExponent < e then 1 else 2
    match
      nearest? ((4 * m - below) * unit) (4 * m * unit) ((4 * m + 2) * unit) grid (m % 2 = 0) with
    | some c =>
      let digits := Text.decimal c
      ⟨digits, k + digits.length⟩
    | none => search m e point fuel (count + 1)

/-- The shortest decimal for `m * 2 ^ e`, with `m` positive. -/
def shortest (m : Nat) (e : Int) : Decimal :=
  search m e (places (m * Binary64.pow2 e.toNat) (Binary64.pow2 (-e).toNat)) 18 1

/-- Digits with a point in its place, never with an exponent. Zeros at the end are left out. -/
def positional (d : Decimal) : List Char :=
  let digits := (d.digits.reverse.dropWhile (· == '0')).reverse
  if d.point ≤ 0 then '0' :: '.' :: (List.replicate (-d.point).toNat '0' ++ digits)
  else
    let before := d.point.toNat
    if digits.length ≤ before then digits ++ List.replicate (before - digits.length) '0'
    else digits.take before ++ '.' :: digits.drop before

end Decimal

namespace Binary64

/-- The text of a number: its shortest decimal without an exponent. -/
def text (x : Binary64) : String :=
  let sign (negative : Bool) : String := if negative then "-" else ""
  match x with
  | nan => "NaN"
  | infinite negative => sign negative ++ "inf"
  | finite negative m e =>
    if m = 0 then sign negative ++ "0"
    else sign negative ++ String.ofList (Decimal.shortest m e).positional

end Binary64

end EngineShell
