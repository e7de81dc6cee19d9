/-!
# Numbers in text

Decimal digits, and whole numbers written with them. `readNat_decimal` says that what `decimal`
writes is read back; reading also admits leading zeros and, for integers, one sign.
-/

namespace EngineShell.Text

/-- The digit of a number below ten. -/
def digit (n : Nat) : Char :=
  Char.ofNat (48 + n)

def digitValue? (c : Char) : Option Nat :=
  if 48 ≤ c.toNat ∧ c.toNat ≤ 57 then some (c.toNat - 48) else none

/-- The number as decimal digits, without leading zeros. -/
def decimal (n : Nat) : List Char :=
  if n < 10 then [digit n] else decimal (n / 10) ++ [digit (n % 10)]

/-- An integer in decimal digits, after a minus sign if it is negative. -/
def decimalInt : Int → List Char
  | .ofNat n => decimal n
  | .negSucc n => '-' :: decimal (n + 1)

def readDigits : Nat → List Char → Option Nat
  | n, [] => some n
  | n, c :: cs => (digitValue? c).bind fun d => readDigits (10 * n + d) cs

/-- A number of at least one digit and nothing else. -/
def readNat (cs : List Char) : Option Nat :=
  if cs.isEmpty then none else readDigits 0 cs

/-- A number after at most one plus sign. -/
def readUnsigned : List Char → Option Nat
  | '+' :: cs => readNat cs
  | cs => readNat cs

/-- A number after at most one sign. -/
def readInt : List Char → Option Int
  | '-' :: cs => (readNat cs).map fun n => -(n : Int)
  | cs => (readUnsigned cs).map Int.ofNat

/-- Whether an integer has at most 32 bits, sign included. -/
def FitsInt32 (i : Int) : Prop :=
  -0x80000000 ≤ i ∧ i < 0x80000000

instance (i : Int) : Decidable (FitsInt32 i) :=
  inferInstanceAs (Decidable (_ ∧ _))

/-- Whether an integer has at most 64 bits, sign included. -/
def FitsInt64 (i : Int) : Prop :=
  -0x8000000000000000 ≤ i ∧ i < 0x8000000000000000

instance (i : Int) : Decidable (FitsInt64 i) :=
  inferInstanceAs (Decidable (_ ∧ _))

/-- An integer of 32 bits, sign included. -/
def readInt32 (cs : List Char) : Option Int :=
  (readInt cs).filter fun i => decide (FitsInt32 i)

/-- An integer of 64 bits, sign included. -/
def readInt64 (cs : List Char) : Option Int :=
  (readInt cs).filter fun i => decide (FitsInt64 i)

theorem digitValue?_digit {n : Nat} (h : n < 10) : digitValue? (digit n) = some n := by
  have : n = 0 ∨ n = 1 ∨ n = 2 ∨ n = 3 ∨ n = 4 ∨ n = 5 ∨ n = 6 ∨ n = 7 ∨ n = 8 ∨ n = 9 := by omega
  rcases this with rfl | rfl | rfl | rfl | rfl | rfl | rfl | rfl | rfl | rfl <;> rfl

theorem readDigits_append (as bs : List Char) (n : Nat) :
    readDigits n (as ++ bs) = (readDigits n as).bind fun m => readDigits m bs := by
  induction as generalizing n with
  | nil => rfl
  | cons c cs ih =>
    simp only [List.cons_append, readDigits]
    cases digitValue? c <;> simp [ih]

theorem readDigits_decimal (n : Nat) : readDigits 0 (decimal n) = some n := by
  fun_induction decimal n with
  | case1 n h => simp [readDigits, digitValue?_digit h]
  | case2 n h ih =>
    rw [readDigits_append, ih]
    simp only [Option.bind_some, readDigits, digitValue?_digit (Nat.mod_lt n (by omega))]
    exact congrArg some (Nat.div_add_mod n 10)

theorem decimal_ne_nil (n : Nat) : decimal n ≠ [] := by
  unfold decimal
  split <;> simp

/-- A written number reads back. -/
theorem readNat_decimal (n : Nat) : readNat (decimal n) = some n := by
  simp [readNat, decimal_ne_nil, readDigits_decimal]

end EngineShell.Text
