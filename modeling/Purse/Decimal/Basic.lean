/-!
# Decimals

An exact decimal number of bounded size: a sign, a mantissa of 96 bits and a scale, the number of
digits after the point, of at most 28. The scale belongs to a value (`1.50` and `1.5` are two
decimals), and so does the sign of zero, but neither counts in comparisons. `units` is the exact
value of a decimal, counted in the smallest step any decimal can take, so that all decimals are
compared and added as integers.
-/

namespace Purse

/-- A mantissa is below this number. -/
abbrev Decimal.capacity : Nat := 1 <<< 96

/-- A scale is at most this number. -/
abbrev Decimal.maxScale : Nat := 28

/-- A decimal number: the mantissa divided by ten to the scale, with a sign. -/
structure Decimal where
  negative : Bool
  mantissa : Nat
  scale : Nat
  mantissa_lt : mantissa < Decimal.capacity := by decide
  scale_le : scale ≤ Decimal.maxScale := by decide
  deriving DecidableEq, Repr

namespace Decimal

/-- Zero without digits after the point. -/
def zero : Decimal := { negative := false, mantissa := 0, scale := 0 }

instance : Inhabited Decimal := ⟨zero⟩

/-- The mantissa with its sign. -/
def signed (d : Decimal) : Int := if d.negative then -(d.mantissa : Int) else d.mantissa

/-- The signed mantissa the decimal would have at another, larger scale. -/
def alignedTo (d : Decimal) (scale : Nat) : Int := d.signed * Nat.pow 10 (scale - d.scale)

/-- The exact value, counted in steps of ten to the minus 28. -/
def units (d : Decimal) : Int := d.alignedTo maxScale

/-- Whether the value is zero, whatever sign and scale. -/
def isZero (d : Decimal) : Bool := d.mantissa == 0

/-- Whether one value is below another. -/
def lt (a b : Decimal) : Bool := a.units < b.units

/-- Whether one value is at most another. -/
def le (a b : Decimal) : Bool := a.units ≤ b.units

/-- Whether the value is below zero. -/
def isBelowZero (d : Decimal) : Bool := d.units < 0

/-- The decimal with the other sign. -/
def neg (d : Decimal) : Decimal := { d with negative := !d.negative }

/-- The decimal of a sign, a mantissa and a scale, when they are in range. -/
def ofParts? (negative : Bool) (mantissa scale : Nat) : Option Decimal :=
  if h : mantissa < capacity ∧ scale ≤ maxScale then some ⟨negative, mantissa, scale, h.1, h.2⟩
  else none

@[simp] theorem signed_neg (d : Decimal) : d.neg.signed = -d.signed := by
  unfold signed neg
  cases d.negative <;> simp

@[simp] theorem units_neg (d : Decimal) : d.neg.units = -d.units := by
  simp only [units, alignedTo, signed_neg]
  exact Int.neg_mul _ _

theorem isZero_iff_units (d : Decimal) : d.isZero = true ↔ d.units = 0 := by
  have hpow : ((Nat.pow 10 (maxScale - d.scale) : Nat) : Int) ≠ 0 :=
    Int.natCast_ne_zero.2 (Nat.ne_of_gt (Nat.pow_pos (by decide)))
  simp only [isZero, units, alignedTo, beq_iff_eq, Int.mul_eq_zero, hpow, or_false, signed]
  cases d.negative <;> simp

end Decimal

end Purse
