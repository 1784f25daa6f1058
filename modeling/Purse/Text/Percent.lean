import Purse.Text.Positional
import Purse.Text.Utf8

/-!
# Percent signs

Text in which bytes may be written as a percent sign and two hexadecimal digits, in letters of either
case. A percent sign without two digits stands for itself. Such text gives pairs of names and values
too, parted by ampersands; a name ends at the first equality sign, and a plus sign is a space.
-/

namespace Purse.Percent

/-- The hexadecimal digits. -/
def hexDigits : List Char := "0123456789abcdef".toList

/-- The hexadecimal digit that a byte stands for, as a character. -/
def hexDigit? (b : UInt8) : Option Nat :=
  Positional.digitOf? hexDigits (Char.ofNat b.toNat).toLower

/-- The byte of two hexadecimal digits. -/
def byte? (a b : UInt8) : Option UInt8 := do
  let high ← hexDigit? a
  let low ← hexDigit? b
  return UInt8.ofNat (high * 16 + low)

/-- Reads bytes that are written by percent signs among others. -/
def decodeBytes : List UInt8 → List UInt8
  | 0x25 :: a :: b :: bs =>
    match byte? a b with
    | some c => c :: decodeBytes bs
    | none => 0x25 :: decodeBytes (a :: b :: bs)
  | b :: bs => b :: decodeBytes bs
  | [] => []

/-- The bytes that a text stands for. -/
def decode (text : String) : List UInt8 := decodeBytes text.toUTF8.toList

/-- The part of a text before a character, and the part behind it. -/
def cutAt (c : Char) (cs : List Char) : List Char × List Char :=
  (cs.takeWhile (· ≠ c), (cs.dropWhile (· ≠ c)).tail)

/-- The name or value that characters stand for. -/
def decodeWord (cs : List Char) : String :=
  let spaced := cs.map fun c => if c = '+' then ' ' else c
  String.ofList (Utf8.readLossy (decode (String.ofList spaced)))

/-- The pairs of names and values in a text. -/
def pairs (text : String) : List (String × String) :=
  let parts := (text.splitOn "&").filter (!·.isEmpty)
  parts.map fun part =>
    let (name, value) := cutAt '=' part.toList
    (decodeWord name, decodeWord value)

end Purse.Percent
