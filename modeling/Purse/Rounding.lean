/-!
# Rounding

The quotient of two numbers, rounded to the nearest integer. A quotient that lies halfway between two
integers goes to the even one.
-/

namespace Purse

/-- A number divided by a step, rounded to the nearest integer, a half to the even one. -/
def roundedQuotient (n step : Nat) : Nat :=
  let q := n / step
  let r := n % step
  if step < 2 * r ∨ (2 * r = step ∧ q % 2 = 1) then q + 1 else q

end Purse
