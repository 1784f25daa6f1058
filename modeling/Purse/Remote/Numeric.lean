import Purse.Decimal.Sum

/-!
# Numbers of any size

The numbers of a database: an integer divided by ten to a scale, with no limit to either. They are
added without loss, at the larger of the two scales. A decimal comes into the database as it is, but
for zero, which has neither sign nor scale there. A number goes out as a decimal, where it fits one: one
with too many digits gives up as few places as it takes.
-/

namespace Purse.Remote

/-- An exact number. -/
structure Numeric where
  unscaled : Int
  scale : Nat
  deriving DecidableEq, Repr, Inhabited

namespace Numeric

/-- Zero. -/
def zero : Numeric := ⟨0, 0⟩

/-- The integer that a number would have at another, larger scale. -/
def alignedTo (n : Numeric) (scale : Nat) : Int := n.unscaled * Nat.pow 10 (scale - n.scale)

/-- The sum of two numbers. -/
def add (a b : Numeric) : Numeric :=
  let scale := max a.scale b.scale
  ⟨a.alignedTo scale + b.alignedTo scale, scale⟩

/-- Whether a number is below zero. -/
def isBelowZero (n : Numeric) : Bool := n.unscaled < 0

/-- The number of a decimal. -/
def ofDecimal (d : Decimal) : Numeric := if d.isZero then zero else ⟨d.signed, d.scale⟩

/-- The decimal of a number, where there is one. -/
def toDecimal? (n : Numeric) : Option Decimal :=
  if n.unscaled = 0 then some Decimal.zero
  else Decimal.fit? (decide (n.unscaled < 0)) n.unscaled.natAbs n.scale

end Numeric

end Purse.Remote
