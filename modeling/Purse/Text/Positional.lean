/-!
# Positional numerals

Numbers as lists of digits, most significant digit first, and the characters that stand for the
digits. `value` reads a list of digits, `digits` writes a number at a fixed width, `numeral` writes it
in base ten with no leading zero. The two main statements say that reading undoes writing:
`value_digits` and `value_numeral`.
-/

namespace Purse.Positional

/-- The number that a list of digits denotes. -/
def value (base : Nat) (ds : List Nat) : Nat :=
  ds.foldl (fun acc d => acc * base + d) 0

/-- The last `width` digits of a number. -/
def digits (base : Nat) : Nat → Nat → List Nat
  | 0, _ => []
  | width + 1, n => digits base width (n / base) ++ [n % base]

/-- The digits of a number in base ten, without leading zeros. -/
def numeral (n : Nat) : List Nat :=
  if n < 10 then [n] else numeral (n / 10) ++ [n % 10]
termination_by n

/-- The character of a digit in an alphabet. -/
def charOf (alphabet : List Char) (d : Nat) : Char :=
  alphabet.getD d '0'

/-- The digit that a character stands for. -/
def digitOf? (alphabet : List Char) (c : Char) : Option Nat :=
  alphabet.idxOf? c

/-- The ten decimal digits. -/
def decimalDigits : List Char := "0123456789".toList

/-- The decimal digit that a character stands for. -/
def decimalDigit? (c : Char) : Option Nat :=
  digitOf? decimalDigits c

/-- A number in base ten, without leading zeros. -/
def decimalText (n : Nat) : List Char :=
  (numeral n).map (charOf decimalDigits)

/-- A number in base ten, at a fixed width. -/
def decimalField (width n : Nat) : List Char :=
  (digits 10 width n).map (charOf decimalDigits)

/-- The number that a text of decimal digits denotes; at least one digit is required. -/
def readDecimal? (cs : List Char) : Option Nat :=
  if cs.isEmpty then none else (cs.mapM decimalDigit?).map (value 10)

@[simp] theorem value_nil (base : Nat) : value base [] = 0 := rfl

theorem value_append_singleton (base : Nat) (ds : List Nat) (d : Nat) :
    value base (ds ++ [d]) = value base ds * base + d := by
  simp [value]

@[simp] theorem length_digits (base width n : Nat) : (digits base width n).length = width := by
  induction width generalizing n with
  | zero => rfl
  | succ w ih => simp [digits, ih]

/-- Reading the last `width` digits of a number gives its remainder at that width. -/
theorem value_digits (base width n : Nat) : value base (digits base width n) = n % Nat.pow base width := by
  induction width generalizing n with
  | zero => simp [digits, Nat.mod_one]
  | succ w ih =>
    have hpow : Nat.pow base (w + 1) = base * Nat.pow base w := Nat.mul_comm _ _
    rw [digits, value_append_singleton, ih, hpow, Nat.mod_mul, Nat.mul_comm base]
    omega

/-- Reading a numeral gives the number that it was written for. -/
theorem value_numeral (n : Nat) : value 10 (numeral n) = n := by
  induction n using Nat.strongRecOn with
  | _ n ih =>
    rw [numeral]
    split
    · simp [value]
    · rw [value_append_singleton, ih (n / 10) (by omega)]
      omega

end Purse.Positional
