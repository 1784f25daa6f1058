import Purse.Text.Blank
import Purse.Text.Positional

/-!
# Wallet ids

A wallet id is a number of 128 bits whose upper 48 bits tell the millisecond of its making. It is
written with 26 digits of base 32, in an alphabet of the ten decimal digits and the capital letters
without I, L, O and U. The digits ascend with their characters, so ids sort alike as numbers and as
texts. In reading, the case of letters does not count, and what a first digit above 7 has beyond 128
bits is dropped.
-/

namespace Purse

/-- How many wallet ids there are. -/
abbrev WalletId.count : Nat := 1 <<< 128

/-- Identifies a wallet. -/
structure WalletId where
  val : Nat
  val_lt : val < WalletId.count
  deriving DecidableEq, Repr

/-- Why a text is no wallet id. -/
inductive WalletIdError where
  /-- The text does not take 26 bytes. -/
  | invalidLength
  /-- A character stands for no digit. -/
  | invalidChar
  deriving DecidableEq, Repr

/-- The error as a person reads it. -/
def WalletIdError.message : WalletIdError → String
  | invalidLength => "invalid length"
  | invalidChar => "invalid character"

namespace WalletId

/-- The id of the lowest 128 bits of a number. -/
def ofNat (n : Nat) : WalletId := ⟨n % count, Nat.mod_lt _ (by decide)⟩

instance : Inhabited WalletId := ⟨ofNat 0⟩

/-- How ids are ordered: as numbers. -/
def order (a b : WalletId) : Ordering := compare a.val b.val

/-- The digits of ids, in ascending order. -/
def alphabet : List Char := "0123456789ABCDEFGHJKMNPQRSTVWXYZ".toList

/-- How many digits an id has. -/
def width : Nat := 26

/-- The characters of an id. -/
def chars (id : WalletId) : List Char :=
  (Positional.digits 32 width id.val).map (Positional.charOf alphabet)

/-- The canonical text of an id. -/
def text (id : WalletId) : String := String.ofList id.chars

/-- The digit that a character stands for, small letters included. -/
def digit? (c : Char) : Option Nat := Positional.digitOf? alphabet c.toUpper

/-- Reads an id. The length, in bytes, is looked at before the characters. -/
def parse (text : String) : Except WalletIdError WalletId :=
  if text.utf8ByteSize ≠ width then .error .invalidLength
  else match text.toList.mapM digit? with
    | none => .error .invalidChar
    | some ds => .ok (ofNat (Positional.value 32 ds))

/-- Reads an id from a text that may have blanks around it. -/
def parseTrimmed? (text : String) : Option WalletId :=
  (parse (trim text)).toOption

end WalletId

end Purse
