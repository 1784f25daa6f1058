import Purse.Rounding
import Purse.Text.Positional

/-!
# The range of numbers

Whether a number of a document is too large to be kept as a double. What counts is the number as it is
kept: as many leading digits as make a word of 64 bits, rounded to a double, times a power of ten that
is a double too. The product is past the doubles from half a step above the largest of them.
-/

namespace Purse.Json

/-- Takes digits on as long as the number stays below 64 bits, and tells how many digits are left. -/
def absorb (n : Nat) : List Nat → Nat × Nat
  | [] => (n, 0)
  | d :: ds => if n * 10 + d < 1 <<< 64 then absorb (n * 10 + d) ds else (n, ds.length + 1)

/-- A number as it is kept: an integer times ten to an exponent. -/
structure Kept where
  significand : Nat
  exponent : Int
  deriving DecidableEq, Repr

/-- The number of digits before and after a point, times ten to an exponent. Digits before the point
that are not taken on still count as places, those after it do not. -/
def Kept.ofDigits (whole fraction : List Nat) (exponent : Int) : Kept :=
  let (n, left) := absorb 0 whole
  let (n, dropped) := absorb n fraction
  ⟨n, left - (fraction.length - dropped : Nat) + exponent⟩

/-- An integer rounded to the nearest double: to 53 bits, a half to the even one. -/
def nearestDouble (n : Nat) : Nat :=
  let step := 1 <<< (n.log2 - 52)
  roundedQuotient n step * step

/-- Half a step above the largest double. -/
def pastDoubles : Nat := 1 <<< 1024 - 1 <<< 970

/-- The largest exponent of ten that is a double. -/
def maxExponent : Nat := 308

/-- Whether a number lies past the doubles. -/
def Kept.isPastDoubles (k : Kept) : Bool :=
  k.significand != 0 && decide (0 ≤ k.exponent)
    && (decide (maxExponent < k.exponent.toNat)
      || decide (pastDoubles ≤ nearestDouble k.significand * nearestDouble (Nat.pow 10 k.exponent.toNat)))

end Purse.Json
