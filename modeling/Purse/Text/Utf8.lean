/-!
# UTF-8

Reading bytes as characters, one at a time. `scan` tells how far the first character goes, or in what way
there is none. `firstFlaw?` finds the first place where bytes are no text, and `readLossy` reads them all
the same, with a replacement character for each such place.
-/

namespace Purse.Utf8

/-- How the first character of some bytes goes. -/
inductive Extent where
  /-- It takes this many bytes. -/
  | whole (size : Nat)
  /-- This many bytes belong to no character. -/
  | broken (size : Nat)
  /-- The bytes end before it does. -/
  | cutOff
  deriving DecidableEq, Repr

/-- Whether a byte continues a character. -/
def isContinuation (b : UInt8) : Bool := 0x80 ≤ b && b ≤ 0xBF

/-- What a first byte that stands not alone asks for: the bounds of the byte after it, and how many more
bytes continue the character after that. -/
def demand? (b : UInt8) : Option (UInt8 × UInt8 × Nat) :=
  if 0xC2 ≤ b && b ≤ 0xDF then some (0x80, 0xBF, 0)
  else if b == 0xE0 then some (0xA0, 0xBF, 1)
  else if b == 0xED then some (0x80, 0x9F, 1)
  else if 0xE1 ≤ b && b ≤ 0xEF then some (0x80, 0xBF, 1)
  else if b == 0xF0 then some (0x90, 0xBF, 2)
  else if 0xF1 ≤ b && b ≤ 0xF3 then some (0x80, 0xBF, 2)
  else if b == 0xF4 then some (0x80, 0x8F, 2)
  else none

/-- How a character goes of which `size` bytes are read and some more are to continue it. -/
def scanTail (size : Nat) : Nat → List UInt8 → Extent
  | 0, _ => .whole size
  | _ + 1, [] => .cutOff
  | more + 1, b :: bs => if isContinuation b then scanTail (size + 1) more bs else .broken size

/-- How the first character goes, given its first byte. -/
def scan (b : UInt8) (bs : List UInt8) : Extent :=
  if b < 0x80 then .whole 1
  else match demand? b, bs with
    | none, _ => .broken 1
    | some _, [] => .cutOff
    | some (least, greatest, more), c :: cs =>
      if least ≤ c && c ≤ greatest then scanTail 2 more cs else .broken 1

/-- A place where bytes are no text. -/
structure Flaw where
  /-- How many bytes before it are text. -/
  index : Nat
  /-- How many bytes are wrong; none if the bytes end amid a character. -/
  size : Option Nat
  deriving DecidableEq, Repr

/-- The flaw as a person reads it. -/
def Flaw.message (f : Flaw) : String :=
  match f.size with
  | some n => "invalid utf-8 sequence of " ++ toString n ++ " bytes from index " ++ toString f.index
  | none => "incomplete utf-8 byte sequence from index " ++ toString f.index

/-- The first place where bytes are no text, after `index` bytes that are. -/
def flawFrom? (index : Nat) : List UInt8 → Option Flaw
  | [] => none
  | b :: bs =>
    match scan b bs with
    | .whole size => flawFrom? (index + size) (bs.drop (size - 1))
    | .broken size => some ⟨index, some size⟩
    | .cutOff => some ⟨index, none⟩
termination_by bytes => bytes.length
decreasing_by simp only [List.length_cons, List.length_drop]; omega

/-- The first place where bytes are no text. -/
def firstFlaw? (bytes : List UInt8) : Option Flaw := flawFrom? 0 bytes

/-- The bits of a first byte that count. -/
def leadBits (b : UInt8) : Nat :=
  if b < 0x80 then b.toNat
  else if b < 0xE0 then b.toNat % 0x20
  else if b < 0xF0 then b.toNat % 0x10
  else b.toNat % 8

/-- The character of a first byte and those that continue it. -/
def charOf (b : UInt8) (continuing : List UInt8) : Char :=
  Char.ofNat (continuing.foldl (fun n c => n * 0x40 + c.toNat % 0x40) (leadBits b))

/-- What stands for bytes that are no text. -/
def replacement : Char := '\uFFFD'

/-- The characters of some bytes, with a replacement for each place where they are no text. -/
def readLossy : List UInt8 → List Char
  | [] => []
  | b :: bs =>
    match scan b bs with
    | .whole size => charOf b (bs.take (size - 1)) :: readLossy (bs.drop (size - 1))
    | .broken size => replacement :: readLossy (bs.drop (size - 1))
    | .cutOff => [replacement]
termination_by bytes => bytes.length
decreasing_by all_goals simp only [List.length_cons, List.length_drop]; omega

end Purse.Utf8
