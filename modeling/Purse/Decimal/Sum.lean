import Purse.Decimal.Basic
import Purse.Rounding

/-!
# Sums of decimals

A sum is exact at the larger of the two scales whenever its mantissa fits there. A longer sum gives up
as few places as it takes to fit, and the last place kept is rounded, a half to the even neighbour.
With no place left to give up there is no sum. A zero operand is passed over: the sum is then the
other operand as it stands, with its own scale.
-/

namespace Purse.Decimal

/-- A number divided by ten to `places`, rounded to the nearest integer, a half to the even one. -/
def roundOff (n places : Nat) : Nat := roundedQuotient n (Nat.pow 10 places)

/-- The decimal of a magnitude at a scale, having given up as few places as it takes to fit. -/
def fit? (negative : Bool) (magnitude scale : Nat) : Option Decimal :=
  (List.range (scale + 1)).findSome? fun places =>
    ofParts? negative (roundOff magnitude places) (scale - places)

/-- The sum of two decimals, when there is one. -/
def add? (a b : Decimal) : Option Decimal :=
  if a.isZero then some b
  else if b.isZero then some a
  else
    let scale := max a.scale b.scale
    let sum := a.alignedTo scale + b.alignedTo scale
    fit? (decide (sum < 0)) sum.natAbs scale

/-- The sum of many decimals, added up in order from zero. -/
def sum? (ds : List Decimal) : Option Decimal :=
  ds.foldlM (fun total d => add? total d) zero

end Purse.Decimal
