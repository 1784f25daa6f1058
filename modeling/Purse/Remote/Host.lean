import Purse.Text.Percent

/-!
# Hosts

The host in a locator: a name, or an address of 32 or of 128 bits. An address of 128 bits stands in
brackets. Other than that, what a host may be depends on the scheme. In most schemes it is any name
without certain characters. In the schemes of the web it is a name in small letters, and a name that ends
in a number has to be an address of 32 bits. Letters beyond ASCII are kept as they stand.
-/

namespace Purse.Remote

/-- Why a text is no host. -/
inductive HostError where
  /-- There is nothing. -/
  | empty
  /-- A character may not stand in a name. -/
  | invalidCharacter
  /-- A name of the web holds what no such name may hold. -/
  | invalidName
  /-- A name that ends in a number is no address of 32 bits. -/
  | invalidAddress32
  /-- What stands in brackets is no address of 128 bits. -/
  | invalidAddress128
  deriving DecidableEq, Repr

/-- A host. -/
inductive Host where
  | name (text : String)
  | address32 (value : Nat)
  | address128 (text : String)
  deriving DecidableEq, Repr

namespace Host

/-- The parts of a text between the places of a character. -/
def parts (separator : Char) (cs : List Char) : List (List Char) :=
  cs.foldr (fun c ps => if c = separator then [] :: ps else
    match ps with
    | [] => [[c]]
    | p :: rest => (c :: p) :: rest) [[]]

/-! ## Addresses, strictly -/

/-- Whether a text is a number below 256 without leading zeros. -/
def isOctet (cs : List Char) : Bool :=
  (Positional.readDecimal? cs).any (· < 256) && (cs.length == 1 || cs.head? != some '0')

/-- Whether a text is an address of 32 bits: four numbers with points between them. -/
def isDotted (cs : List Char) : Bool :=
  (parts '.' cs).length == 4 && (parts '.' cs).all isOctet

/-- Whether a character is a hexadecimal digit. -/
def isHexDigit (c : Char) : Bool := Percent.hexDigits.contains c.toLower

/-- Whether a text is a group of 16 bits in an address. -/
def isGroup (cs : List Char) : Bool :=
  decide (1 ≤ cs.length) && decide (cs.length ≤ 4) && cs.all isHexDigit

/-- How many groups of 16 bits some parts of an address have. The last one may be an address of 32 bits,
which makes two, where that is allowed. -/
def groupCount? (dottedEnd : Bool) : List (List Char) → Option Nat
  | [] => some 0
  | [p] => if isGroup p then some 1 else if dottedEnd && isDotted p then some 2 else none
  | p :: ps => if isGroup p then (groupCount? dottedEnd ps).map (· + 1) else none

/-- How many groups of 16 bits a piece of an address has, with colons between them. -/
def pieceCount? (dottedEnd : Bool) (cs : List Char) : Option Nat :=
  if cs.isEmpty then some 0 else groupCount? dottedEnd (parts ':' cs)

/-- Cuts a text at the first two colons in a row. -/
def cutAtGap? : List Char → Option (List Char × List Char)
  | ':' :: ':' :: cs => some ([], cs)
  | c :: cs => (cutAtGap? cs).map fun (before, after) => (c :: before, after)
  | [] => none

/-- Whether a text is an address of 128 bits: eight groups, or fewer with a gap of two colons that stands
for one group at least. -/
def isAddress128 (cs : List Char) : Bool :=
  match cutAtGap? cs with
  | none => pieceCount? true cs == some 8
  | some (before, after) =>
    match pieceCount? false before, pieceCount? true after with
    | some m, some n => decide (m + n ≤ 7)
    | _, _ => false

/-- Whether a text is an address of either size. -/
def isAddress (text : String) : Bool := isDotted text.toList || isAddress128 text.toList

/-- Reads an address of 128 bits from behind its opening bracket. -/
def readBracketed (cs : List Char) : Except HostError Host :=
  if cs.getLast? = some ']' && isAddress128 cs.dropLast then
    .ok (.address128 (String.ofList cs.dropLast))
  else .error .invalidAddress128

/-! ## Any scheme -/

/-- The characters that may not stand in a name. -/
def forbidden : List Char :=
  ['\x00', '\t', '\n', '\r', ' ', '#', '/', ':', '<', '>', '?', '@', '[', '\\', ']', '^', '|']

/-- Reads a host as it is in most schemes. -/
def read (cs : List Char) : Except HostError Host :=
  match cs with
  | '[' :: rest => readBracketed rest
  | _ => if cs.any forbidden.contains then .error .invalidCharacter else .ok (.name (String.ofList cs))

/-! ## The web -/

/-- Reads a number of an address in base 16, 8 or 10, by how it begins. -/
def readNumber? (cs : List Char) : Option Nat :=
  let inBase (base : Nat) (digits : List Char) : Option Nat :=
    let alphabet := Percent.hexDigits.take base
    (digits.mapM fun c => Positional.digitOf? alphabet c.toLower).map (Positional.value base)
  match cs with
  | [] => none
  | '0' :: 'x' :: digits | '0' :: 'X' :: digits => inBase 16 digits
  | '0' :: d :: digits => inBase 8 (d :: digits)
  | digits => inBase 10 digits

/-- The parts of a name between its points, without an empty one at the end. -/
def labels (cs : List Char) : List (List Char) :=
  let ps := parts '.' cs
  if ps.getLast? = some [] then ps.dropLast else ps

/-- Whether the last part of a name is a number. -/
def endsInNumber (cs : List Char) : Bool :=
  match (labels cs).getLast? with
  | none => false
  | some p => (!p.isEmpty && p.all Char.isDigit) || (readNumber? p).isSome

/-- The address of four numbers at most, of which the last one fills what the others leave. -/
def addressOf? (numbers : List Nat) : Option Nat :=
  match numbers.getLast? with
  | none => none
  | some last =>
    let others := numbers.dropLast
    if others.length ≤ 3 ∧ others.all (· < 256) ∧ last < Nat.pow 256 (4 - others.length) then
      some (Positional.value 256 others * Nat.pow 256 (4 - others.length) + last)
    else none

/-- Reads an address of 32 bits as it is on the web. -/
def readAddress32? (cs : List Char) : Option Nat := ((labels cs).mapM readNumber?).bind addressOf?

/-- The characters that may not stand in a name of the web. -/
def isForbiddenOnWeb (c : Char) : Bool :=
  decide (c.toNat ≤ 0x20) || c == '\x7f' || c == '%' || forbidden.contains c

/-- Reads a host as it is on the web. -/
def readOnWeb (cs : List Char) : Except HostError Host :=
  match cs with
  | '[' :: rest => readBracketed rest
  | _ =>
    let bytes := Percent.decode (String.ofList cs)
    let name := (Utf8.readLossy bytes).map Char.toLower
    if (Utf8.firstFlaw? bytes).isSome || name.any isForbiddenOnWeb then .error .invalidName
    else if name.isEmpty then .error .empty
    else if endsInNumber name then
      match readAddress32? name with
      | some value => .ok (.address32 value)
      | none => .error .invalidAddress32
    else .ok (.name (String.ofList name))

/-- The numbers of an address of 32 bits, with points between them. -/
def dottedText (value : Nat) : String :=
  ".".intercalate ((Positional.digits 256 4 value).map toString)

/-- The host as it stands in a locator. -/
def text : Host → String
  | name s => s
  | address32 value => dottedText value
  | address128 s => "[" ++ s ++ "]"

end Host

end Purse.Remote
