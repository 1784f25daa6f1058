import Purse.Decimal.Basic
import Purse.Text.Positional

/-!
# The text of decimals

A decimal is written with all the digits of its scale, and with its sign even when it is zero. The
reader takes more than the writer gives: a plus sign, `_` between and after digits, a point with
digits on one side only. Digits after the point beyond the 28th place, or beyond the capacity of the
mantissa, are cut off, the first of them rounding the last one kept, a half up. A `_` right behind the
28th place is cut off like a zero, if the digits before that place make a short number. The exponent
form is read by `parseScientific?` where the plain form fails.
-/

namespace Purse.Decimal

/-! ## Writing -/

/-- The characters of a decimal. -/
def chars (d : Decimal) : List Char :=
  let sign := if d.negative then ['-'] else []
  let whole := Positional.decimalText (d.mantissa / Nat.pow 10 d.scale)
  let fraction :=
    if d.scale = 0 then []
    else '.' :: Positional.decimalField d.scale (d.mantissa % Nat.pow 10 d.scale)
  sign ++ whole ++ fraction

/-- The text of a decimal. -/
def text (d : Decimal) : String := String.ofList d.chars

/-! ## The form of a numeral -/

/-- What stands behind the point, character by character. -/
inductive Mark where
  | digit (d : Nat)
  /-- A `_`, which parts digits for the eye. -/
  | gap
  deriving DecidableEq, Repr

/-- A text in the form of a decimal, not yet cut to size. -/
structure Numeral where
  negative : Bool
  /-- The digits before the point. -/
  whole : List Nat
  /-- What stands after the point. -/
  fraction : List Mark
  deriving DecidableEq, Repr

/-- Reads what stands after the point, up to the end of the text. At least one digit must have been
seen by then, and before any `_`. -/
def readFraction (seen : Bool) : List Char → Option (List Mark)
  | [] => if seen then some [] else none
  | '_' :: cs => if seen then (readFraction seen cs).map (Mark.gap :: ·) else none
  | c :: cs => do
    let d ← Positional.decimalDigit? c
    let marks ← readFraction true cs
    return .digit d :: marks

/-- Reads the digits before the point, and what stands after it. -/
def readWhole (seen : Bool) : List Char → Option (List Nat × List Mark)
  | [] => if seen then some ([], []) else none
  | '.' :: cs => (readFraction seen cs).map fun fraction => ([], fraction)
  | '_' :: cs => if seen then readWhole seen cs else none
  | c :: cs => do
    let d ← Positional.decimalDigit? c
    let (whole, fraction) ← readWhole true cs
    return (d :: whole, fraction)

/-- Reads a text in the form of a decimal. -/
def Numeral.read (cs : List Char) : Option Numeral :=
  let (negative, body) := match cs with
    | '-' :: rest => (true, rest)
    | '+' :: rest => (false, rest)
    | _ => (false, cs)
  (readWhole false body).map fun (whole, fraction) => ⟨negative, whole, fraction⟩

/-! ## Cutting to size -/

/-- A magnitude and a scale, rounded up by one in the last place. Where that leaves the capacity, the
last place is given up. -/
def roundedUp? (mantissa scale : Nat) : Option (Nat × Nat) :=
  if mantissa + 1 < capacity then some (mantissa + 1, scale)
  else if scale = 0 then none
  else some ((mantissa + 5) / 10, scale - 1)

/-- A number below this one is short: there is plenty of room in 64 bits for one more digit. -/
def shortBound : Nat := (1 <<< 64 - 1) / 10 - 255

/-- Appends digits after the point while there is room, and rounds by the first that has none. A gap
ends the last place as a zero does, if what stands before that place is short. -/
def append? (mantissa scale : Nat) : List Mark → Option (Nat × Nat)
  | [] => some (mantissa, scale)
  | .gap :: marks =>
    if scale = maxScale ∧ mantissa / 10 < shortBound then some (mantissa, scale)
    else append? mantissa scale marks
  | .digit d :: marks =>
    if scale < maxScale ∧ mantissa * 10 + d < capacity then
      append? (mantissa * 10 + d) (scale + 1) marks
    else if d < 5 then some (mantissa, scale)
    else roundedUp? mantissa scale

/-- The decimal of a numeral: nothing when the digits before the point do not fit. Zero has no sign. -/
def Numeral.toDecimal? (n : Numeral) : Option Decimal := do
  let whole := Positional.value 10 n.whole
  if capacity ≤ whole then none
  else
    let (mantissa, scale) ← append? whole 0 n.fraction
    ofParts? (n.negative && mantissa != 0) mantissa scale

/-- Reads a decimal. -/
def read? (cs : List Char) : Option Decimal :=
  (Numeral.read cs).bind Numeral.toDecimal?

/-- Reads a decimal from a text. -/
def parse? (text : String) : Option Decimal :=
  read? text.toList

/-! ## The exponent form -/

/-- Reads an unsigned number of 32 bits; a plus sign may stand before it. -/
def readExponent? (cs : List Char) : Option Nat :=
  let digits := match cs with
    | '+' :: rest => rest
    | _ => cs
  (Positional.readDecimal? digits).filter (· < 1 <<< 32)

/-- A magnitude divided by ten to `places`, with the last digit cut off rounding what is kept, a half
up. -/
def roundHalfUp (n places : Nat) : Nat :=
  if places = 0 then n
  else
    let kept := n / Nat.pow 10 places
    if 5 ≤ n / Nat.pow 10 (places - 1) % 10 then kept + 1 else kept

/-- A decimal divided by ten to an exponent of at most 28. Places beyond the 28th are cut off. -/
def shiftDown? (d : Decimal) (exponent : Nat) : Option Decimal :=
  if maxScale < exponent then none
  else if d.scale + exponent ≤ maxScale then ofParts? d.negative d.mantissa (d.scale + exponent)
  else
    ofParts? d.negative (roundHalfUp d.mantissa (d.scale + exponent - maxScale)) maxScale

/-- A decimal times ten to an exponent: first the places of the scale are used up, and beyond those
zeros are appended while they fit. -/
def shiftUp? (d : Decimal) (exponent : Nat) : Option Decimal :=
  if exponent ≤ d.scale then ofParts? d.negative d.mantissa (d.scale - exponent)
  else if maxScale < exponent then none
  else ofParts? d.negative (d.mantissa * Nat.pow 10 (exponent - d.scale)) 0

/-- Whether a character opens an exponent. -/
def opensExponent (c : Char) : Bool := c == 'e' || c == 'E'

/-- Reads a decimal with an exponent. -/
def readScientific? (cs : List Char) : Option Decimal := do
  let base ← read? (cs.takeWhile (!opensExponent ·))
  match cs.dropWhile (!opensExponent ·) with
  | [] => none
  | _ :: '-' :: exponent => shiftDown? base (← readExponent? exponent)
  | _ :: exponent => shiftUp? base (← readExponent? exponent)

/-- Reads a decimal from a text in the plain form or, failing that, in the exponent form. -/
def parseScientific? (text : String) : Option Decimal :=
  parse? text <|> readScientific? text.toList

end Purse.Decimal
