import Purse.Text.Blank
import Purse.Text.Positional
import Purse.Time.Timestamp

/-!
# Timestamps as text

Timestamps in the profile of RFC 3339. They are written in the time zone of Greenwich, with three,
six or nine digits of a second where there are any, and with a sign before a year that has not four
digits. The reader allows more: blanks between the parts, small letters, a space for the `T`, numbers
with fewer digits, an offset with or without its colon, `UTC` for the offset.
-/

namespace Purse.Rfc3339

/-! ## Writing -/

/-- A year: four digits, or a sign and at least four. -/
def yearChars (year : Int) : List Char :=
  let digits :=
    if year.natAbs < 10000 then Positional.decimalField 4 year.natAbs
    else Positional.decimalText year.natAbs
  if 0 ≤ year ∧ year ≤ 9999 then digits
  else (if year < 0 then '-' else '+') :: digits

/-- The part of a second: as many groups of three digits as it needs. -/
def fractionChars (nano : Nat) : List Char :=
  if nano = 0 then []
  else if nano % 1000000 = 0 then '.' :: Positional.decimalField 3 (nano / 1000000)
  else if nano % 1000 = 0 then '.' :: Positional.decimalField 6 (nano / 1000)
  else '.' :: Positional.decimalField 9 nano

/-- The characters of a timestamp. -/
def chars (t : Timestamp) : List Char :=
  let date := Date.ofDays t.day
  let two := Positional.decimalField 2
  let isLeap := 1000000000 ≤ t.nano
  let second := if isLeap then 60 else t.second % 60
  let nano := if isLeap then t.nano - 1000000000 else t.nano
  yearChars date.year ++ '-' :: two date.month ++ '-' :: two date.day
    ++ 'T' :: two (t.second / 3600) ++ ':' :: two (t.second / 60 % 60) ++ ':' :: two second
    ++ fractionChars nano ++ ['Z']

/-- The text of a timestamp. -/
def text (t : Timestamp) : String := String.ofList (chars t)

/-! ## Reading -/

/-! A reader of a part gives the part and the text that follows it. -/

/-- Skips blanks. -/
def skipBlanks (cs : List Char) : List Char := cs.dropWhile isBlank

/-- A number of one digit up to `most`. -/
def number (most : Nat) (cs : List Char) : Option (Nat × List Char) :=
  let digits := (cs.take most).takeWhile (Positional.decimalDigit? · |>.isSome)
  (Positional.readDecimal? digits).map fun n => (n, cs.drop digits.length)

/-- A number of any length. -/
def longNumber (cs : List Char) : Option (Nat × List Char) := number cs.length cs

/-- One given character. -/
def literal (c : Char) : List Char → Option (Unit × List Char)
  | x :: cs => if x = c then some ((), cs) else none
  | [] => none

/-- A year: up to four digits, or any number of them after a sign. -/
def year (cs : List Char) : Option (Int × List Char) :=
  match skipBlanks cs with
  | '-' :: rest => (longNumber rest).map fun (n, rest) => (-(n : Int), rest)
  | '+' :: rest => (longNumber rest).map fun (n, rest) => ((n : Int), rest)
  | rest => (number 4 rest).map fun (n, rest) => ((n : Int), rest)

/-- A number of up to two digits after blanks. -/
def field (cs : List Char) : Option (Nat × List Char) := number 2 (skipBlanks cs)

/-- A separator after blanks. -/
def separator (c : Char) (cs : List Char) : Option (Unit × List Char) := literal c (skipBlanks cs)

/-- A date. -/
def date (cs : List Char) : Option (Date × List Char) := do
  let (y, cs) ← year cs
  let (_, cs) ← separator '-' cs
  let (m, cs) ← field cs
  let (_, cs) ← separator '-' cs
  let (d, cs) ← field cs
  return (⟨y, m, d⟩, cs)

/-- What stands between date and time: a `T` of either case, or a space. -/
def divider : List Char → Option (Unit × List Char)
  | c :: cs => if c = 'T' ∨ c = 't' ∨ c = ' ' then some ((), cs) else none
  | [] => none

/-- The part of a second, in nanoseconds. Digits after the ninth do not count. -/
def fraction : List Char → Option (Nat × List Char)
  | '.' :: cs =>
    let digits := cs.takeWhile (Positional.decimalDigit? · |>.isSome)
    (Positional.readDecimal? (digits.take 9)).map fun n =>
      (n * Nat.pow 10 (9 - (digits.take 9).length), cs.drop digits.length)
  | cs => some (0, cs)

/-- A time of day, as a second of the day and nanoseconds. The second 60 is a leap second. -/
def timeOfDay (cs : List Char) : Option ((Nat × Nat) × List Char) := do
  let (h, cs) ← field cs
  let (_, cs) ← separator ':' cs
  let (m, cs) ← field cs
  let (_, cs) ← separator ':' cs
  let (s, cs) ← field cs
  let (nano, cs) ← fraction cs
  if 23 < h ∨ 59 < m ∨ 60 < s then none
  else if s = 60 then some ((h * 3600 + m * 60 + 59, nano + 1000000000), cs)
  else some ((h * 3600 + m * 60 + s, nano), cs)

/-- Two digits. -/
def twoDigits : List Char → Option (Nat × List Char)
  | a :: b :: cs => do
    let a ← Positional.decimalDigit? a
    let b ← Positional.decimalDigit? b
    return (a * 10 + b, cs)
  | _ => none

/-- Hours and minutes of an offset, in seconds, with colons or blanks between them. -/
def offsetSize (cs : List Char) : Option (Nat × List Char) := do
  let (h, cs) ← twoDigits cs
  let (m, cs) ← twoDigits (cs.dropWhile fun c => c == ':' || isBlank c)
  if 59 < m ∨ 86400 ≤ h * 3600 + m * 60 then none else some (h * 3600 + m * 60, cs)

/-- The offset from Greenwich, in seconds to the east. -/
def offset : List Char → Option (Int × List Char)
  | 'Z' :: cs | 'z' :: cs => some (0, cs)
  | '+' :: cs => (offsetSize cs).map fun (n, cs) => ((n : Int), cs)
  | '-' :: cs | '\u2212' :: cs => (offsetSize cs).map fun (n, cs) => (-(n : Int), cs)
  | u :: t :: c :: cs => if [u, t, c].map Char.toUpper = ['U', 'T', 'C'] then some (0, cs) else none
  | _ => none

/-- The timestamp of a date and a time of day at an offset. -/
def assemble (d : Date) (second nano : Nat) (east : Int) : Option Timestamp := do
  if !d.isValid then none
  let day := d.toDays
  if day < Timestamp.firstDay ∨ Timestamp.lastDay < day then none
  let seconds : Int := day * 86400 + second - east
  Timestamp.ofParts? (seconds / 86400) (seconds % 86400).toNat nano

/-- Reads a timestamp. -/
def read? (cs : List Char) : Option Timestamp := do
  let (d, cs) ← date cs
  let (_, cs) ← divider cs
  let ((second, nano), cs) ← timeOfDay cs
  let (east, cs) ← offset (skipBlanks cs)
  if !(skipBlanks cs).isEmpty then none
  assemble d second nano east

/-- Reads a timestamp from a text. -/
def parse? (text : String) : Option Timestamp := read? text.toList

end Purse.Rfc3339
