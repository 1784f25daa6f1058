import Purse.Text.Positional

/-!
# Quoted text

Text in quotation marks, as it is shown in messages. A quotation mark and a backslash have a backslash
before them, line ends and tabs are written by letters, and what cannot be seen is written by its number.
-/

namespace Purse.Quoted

/-- The ranges of characters beyond ASCII that cannot be seen, or not on their own. -/
def unseenRanges : List (Nat × Nat) :=
  [(0x7F, 0xA0), (0xAD, 0xAD), (0x300, 0x36F), (0x483, 0x489), (0x591, 0x5BD), (0x610, 0x61A),
    (0x64B, 0x65F), (0x1680, 0x1680), (0x180E, 0x180F), (0x2000, 0x200F), (0x2028, 0x202F),
    (0x205F, 0x206F), (0x20D0, 0x20F0), (0x3000, 0x3000), (0xE000, 0xF8FF), (0xFE00, 0xFE0F),
    (0xFE20, 0xFE2F), (0xFEFF, 0xFEFF), (0xFFF0, 0xFFFB), (0xFFFE, 0xFFFF), (0xE0000, 0x10FFFF)]

/-- Whether a character cannot be seen. -/
def isUnseen (c : Char) : Bool :=
  c.toNat < 0x20 || unseenRanges.any fun (first, last) => first ≤ c.toNat && c.toNat ≤ last

/-- A character within quotation marks. -/
def charText (c : Char) : List Char :=
  if c = '"' ∨ c = '\\' then ['\\', c]
  else if c = '\n' then ['\\', 'n']
  else if c = '\r' then ['\\', 'r']
  else if c = '\t' then ['\\', 't']
  else if c = '\x00' then ['\\', '0']
  else if isUnseen c then ['\\', 'u', '\x7b'] ++ Nat.toDigits 16 c.toNat ++ ['\x7d']
  else [c]

/-- A text in quotation marks. -/
def text (s : String) : String := String.ofList ('"' :: s.toList.flatMap charText ++ ['"'])

end Purse.Quoted
