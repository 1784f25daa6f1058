import Purse.Decimal.Text
import Purse.Id.User
import Purse.Id.Wallet
import Purse.Json.Value
import Purse.Time.Rfc3339

/-!
# Forms

How structures stand in JSON. A `Form` lists the fields of a structure, in order, with their kinds and
with what a field is taken to be when it is missing. Every value is a string, or null where it may be
absent. The writer gives an object with the fields in order. The reader takes an object in any order,
with members of other names among them, or an array of the values in order, and gives the first flaw
that it meets.
-/

namespace Purse.Json

/-- What a field holds. -/
inductive Kind where
  | text | decimal | walletId | userId | time | optionalTime | optionalUserId
  deriving DecidableEq, Repr

/-- A value in a field. -/
inductive Cell where
  | text (s : String)
  | decimal (d : Decimal)
  | walletId (id : WalletId)
  | userId (id : UserId)
  | time (t : Timestamp)
  | absent
  deriving DecidableEq, Repr

namespace Kind

/-- Whether a field may be null. -/
def isOptional : Kind → Bool
  | optionalTime | optionalUserId => true
  | text | decimal | walletId | userId | time => false

/-- The value that a string stands for in a field. -/
def ofString? (k : Kind) (s : String) : Option Cell :=
  match k with
  | text => some (.text s)
  | decimal => (Decimal.parseScientific? s).map .decimal
  | walletId => (WalletId.parse s).toOption.map .walletId
  | userId | optionalUserId => (UserId.parse? s).map .userId
  | time | optionalTime => (Rfc3339.parse? s).map .time

end Kind

/-! ## Writing -/

/-- The characters of a value. -/
def Cell.chars : Cell → List Char
  | text s => quoted s.toList
  | decimal d => quoted d.chars
  | walletId id => quoted id.chars
  | userId id => quoted id.chars
  | time t => quoted (Rfc3339.chars t)
  | absent => "null".toList

/-- The characters of an object of named values. -/
def objectChars (members : List (String × Cell)) : List Char :=
  let member (m : String × Cell) : List Char := quoted m.1.toList ++ ':' :: m.2.chars
  '\x7b' :: (List.intercalate [','] (members.map member) ++ ['\x7d'])

/-! ## Reading -/

/-- Reads a string that stands for a value. -/
def readStringCell (k : Kind) (cs : List Char) : Except Flaw (Cell × List Char) := do
  match skipSpace cs with
  | '"' :: rest =>
    let (s, rest) ← readText none rest
    match k.ofString? (String.ofList s) with
    | some cell => .ok (cell, rest)
    | none => .error .unfit
  | rest => .error (wrongKind rest)

/-- Reads a value. -/
def readCell (k : Kind) (cs : List Char) : Except Flaw (Cell × List Char) :=
  match k.isOptional, skipSpace cs with
  | true, 'n' :: rest => do
    let rest ← skipWord ['u', 'l', 'l'] rest
    return (.absent, rest)
  | _, rest => readStringCell k rest

/-- A field of a structure. -/
structure Field where
  name : String
  kind : Kind
  /-- What the field is taken to be when an object has no member for it. -/
  ifMissing : Option Cell := none
  /-- What the field is taken to be when an array is too short for it. -/
  ifShort : Option Cell := none
  deriving DecidableEq, Repr

/-- Passes over a character that has to come next. -/
def expect (c : Char) (cs : List Char) : Except Flaw (List Char) :=
  match skipSpace cs with
  | [] => .error .truncated
  | x :: rest => if x = c then .ok rest else .error .malformed

/-- The name of a member. -/
def readName (cs : List Char) : Except Flaw (String × List Char) := do
  let rest ← expect '"' cs
  let (name, rest) ← readText none rest
  return (String.ofList name, rest)

/-- Reads the members of an object, as many as there are turns, and adds them to those read before. A
second member of a name that counts is refused before its value is read. -/
def readMembers (fields : List Field) :
    Nat → List (String × Cell) → List Char → Except Flaw (List (String × Cell) × List Char)
  | 0, _, _ => .error .truncated
  | turns + 1, members, cs => do
    let (name, rest) ← readName cs
    let (members, rest) ← (match fields.find? (·.name == name) with
      | some field =>
        if (members.lookup name).isSome then .error .unfit
        else do
          let (cell, rest) ← readCell field.kind (← expect ':' rest)
          return (members ++ [(name, cell)], rest)
      | none => do
        let rest ← skipValue (← expect ':' rest)
        return (members, rest) : Except Flaw (List (String × Cell) × List Char))
    match skipSpace rest with
    | [] => .error .truncated
    | '\x7d' :: rest => .ok (members, rest)
    | ',' :: rest => readMembers fields turns members rest
    | _ => .error .malformed

/-- The values of the fields, in order, by their names. -/
def orderMembers (fields : List Field) (members : List (String × Cell)) : Option (List Cell) :=
  fields.mapM fun f => (members.lookup f.name).or f.ifMissing

/-- Reads an object from behind its brace. -/
def readObject (fields : List Field) (cs : List Char) : Except Flaw (List Cell × List Char) := do
  let (members, rest) ← (match skipSpace cs with
    | '\x7d' :: rest => .ok ([], rest)
    | _ => readMembers fields (cs.length + 1) [] cs :
      Except Flaw (List (String × Cell) × List Char))
  match orderMembers fields members with
  | some cells => .ok (cells, rest)
  | none => .error .unfit

/-- Reads what stands before the next element of an array: nothing at the end of the array. -/
def readLead (isFirst : Bool) (cs : List Char) : Except Flaw (Option (List Char)) :=
  match skipSpace cs with
  | [] => .error .truncated
  | ']' :: _ => .ok none
  | c :: rest =>
    if isFirst then .ok (some (c :: rest))
    else if c = ',' then
      match skipSpace rest with
      | [] => .error .truncated
      | ']' :: _ => .error .malformed
      | rest => .ok (some rest)
    else .error .malformed

/-- Reads the elements of an array. -/
def readElements (isFirst : Bool) : List Field → List Char → Except Flaw (List Cell × List Char)
  | [], cs =>
    match skipSpace cs with
    | [] => .error .truncated
    | ']' :: rest => .ok ([], rest)
    | _ => .error .malformed
  | f :: fields, cs => do
    match ← readLead isFirst cs with
    | some rest =>
      let (cell, rest) ← readCell f.kind rest
      let (cells, rest) ← readElements false fields rest
      return (cell :: cells, rest)
    | none =>
      match f.ifShort with
      | none => .error .unfit
      | some cell =>
        let (cells, rest) ← readElements isFirst fields cs
        return (cell :: cells, rest)

/-- Reads a structure's values. -/
def readCells (fields : List Field) (cs : List Char) : Except Flaw (List Cell × List Char) :=
  match skipSpace cs with
  | '\x7b' :: rest => readObject fields rest
  | '[' :: rest => readElements true fields rest
  | rest => .error (wrongKind rest)

/-- The end of the document. -/
def readEnd {α : Type} (a : α) (cs : List Char) : Except Flaw α :=
  if (skipSpace cs).isEmpty then .ok a else .error .malformed

/-- How a structure stands in JSON. -/
structure Form (α : Type) where
  fields : List Field
  /-- The values of the fields, in order. -/
  cells : α → List Cell
  /-- The structure with given values. -/
  ofCells? : List Cell → Option α

namespace Form

variable {α : Type}

/-- The document of a structure. -/
def write (form : Form α) (a : α) : String :=
  String.ofList (objectChars ((form.fields.map Field.name).zip (form.cells a)))

/-- Reads the document of a structure. -/
def read (form : Form α) (text : String) : Except Flaw α := do
  let (cells, rest) ← readCells form.fields text.toList
  match form.ofCells? cells with
  | some a => readEnd a rest
  | none => .error .unfit

end Form

/-- The document of a value that stands alone. -/
def writeCell (cell : Cell) : String := String.ofList cell.chars

/-- Reads the document of a value that stands alone. -/
def readLone (k : Kind) (text : String) : Except Flaw Cell := do
  let (cell, rest) ← readCell k text.toList
  readEnd cell rest

end Purse.Json
