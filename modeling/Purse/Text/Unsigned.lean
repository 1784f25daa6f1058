import Purse.Text.Positional

/-!
# Bounded numbers

Whole numbers without a minus sign, read from a text and held below a limit. A plus sign may stand
before the digits. The digits are read from left to right, so that of two flaws the first one counts.
-/

namespace Purse

/-- Why a text is no number below a limit. -/
inductive NumberFlaw where
  | empty
  | invalidDigit
  | tooLarge
  deriving DecidableEq, Repr

/-- The flaw as a person reads it. -/
def NumberFlaw.message : NumberFlaw → String
  | empty => "cannot parse integer from empty string"
  | invalidDigit => "invalid digit found in string"
  | tooLarge => "number too large to fit in target type"

namespace Unsigned

/-- Reads on, after digits that make a number. -/
def readFrom (limit n : Nat) : List Char → Except NumberFlaw Nat
  | [] => .ok n
  | c :: cs =>
    match Positional.decimalDigit? c with
    | none => .error .invalidDigit
    | some d => if n * 10 + d < limit then readFrom limit (n * 10 + d) cs else .error .tooLarge

/-- Reads a number below a limit. -/
def read (limit : Nat) (text : String) : Except NumberFlaw Nat :=
  match text.toList with
  | [] => .error .empty
  | ['+'] => .error .invalidDigit
  | '+' :: cs => readFrom limit 0 cs
  | cs => readFrom limit 0 cs

end Unsigned

end Purse
