import Purse.Text.Blank
import Purse.Text.Positional

/-!
# User ids

A user id is a number of 128 bits, written as 32 hexadecimal digits. Four written forms are read:
the bare digits; the digits in groups of 8, 4, 4, 4 and 12 with hyphens between them; the grouped form
in braces; the grouped form behind `urn:uuid:`. The case of letters does not count. Each form is a
`Layout`, and one layout serves both reading and writing. The canonical text is the grouped form in
small letters.
-/

namespace Purse

/-- How many user ids there are. -/
abbrev UserId.count : Nat := 1 <<< 128

/-- Identifies a user. -/
structure UserId where
  val : Nat
  val_lt : val < UserId.count
  deriving DecidableEq, Repr

namespace UserId

/-- The id of the lowest 128 bits of a number. -/
def ofNat (n : Nat) : UserId := ⟨n % count, Nat.mod_lt _ (by decide)⟩

instance : Inhabited UserId := ⟨ofNat 0⟩

/-- The nil id, which belongs to nobody. -/
def isNil (id : UserId) : Bool := id.val == 0

/-- What stands at one place of a written id. -/
inductive Place where
  /-- A hexadecimal digit. -/
  | digit
  /-- Always this character, a small letter if it is a letter. -/
  | literal (c : Char)
  deriving DecidableEq, Repr

/-- A written form, place by place. -/
abbrev Layout := List Place

/-- The hexadecimal digits, in ascending order. -/
def alphabet : List Char := "0123456789abcdef".toList

/-- The hexadecimal digit that a character stands for, capital letters included. -/
def digit? (c : Char) : Option Nat := Positional.digitOf? alphabet c.toLower

namespace Layout

/-- Reads the digits of a text that has the layout. The case of letters does not count. -/
def read : Layout → List Char → Option (List Nat)
  | [], [] => some []
  | .digit :: places, c :: cs => do
    let d ← digit? c
    let ds ← read places cs
    return d :: ds
  | .literal l :: places, c :: cs => if c.toLower = l then read places cs else none
  | _, _ => none

/-- Writes digits in the layout. -/
def write : Layout → List Nat → List Char
  | [], _ => []
  | .digit :: places, d :: ds => Positional.charOf alphabet d :: write places ds
  | .digit :: places, [] => Positional.charOf alphabet 0 :: write places []
  | .literal l :: places, ds => l :: write places ds

/-- A run of places for digits. -/
def group (n : Nat) : Layout := List.replicate n .digit

/-- A run of fixed characters. -/
def literals (text : String) : Layout := text.toList.map .literal

/-- The bare digits. -/
def plain : Layout := group 32

/-- The digits in five groups. -/
def hyphenated : Layout :=
  group 8 ++ literals "-" ++ group 4 ++ literals "-" ++ group 4 ++ literals "-" ++ group 4
    ++ literals "-" ++ group 12

/-- The grouped form in braces. -/
def braced : Layout := literals "\x7b" ++ hyphenated ++ literals "\x7d"

/-- The grouped form as a uniform resource name. -/
def urn : Layout := literals "urn:uuid:" ++ hyphenated

/-- Every form in which an id is accepted. -/
def accepted : List Layout := [plain, hyphenated, braced, urn]

end Layout

/-- The characters of an id in its canonical form. -/
def chars (id : UserId) : List Char :=
  Layout.hyphenated.write (Positional.digits 16 32 id.val)

/-- The canonical text of an id. -/
def text (id : UserId) : String := String.ofList id.chars

/-- Reads an id in any accepted form. -/
def parse? (text : String) : Option UserId :=
  (Layout.accepted.findSome? (·.read text.toList)).map fun ds => ofNat (Positional.value 16 ds)

/-- Reads the id of somebody from a text that may have blanks around it: the nil id is refused. -/
def parseTrimmed? (text : String) : Option UserId :=
  (parse? (trim text)).filter (!·.isNil)

end UserId

end Purse
