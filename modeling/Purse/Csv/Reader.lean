/-!
# Reading comma-separated values

Bytes are split into records and fields. A record ends with a line end of either kind, and blank
lines are passed over. A quote counts only where it is the first byte of a field: from there on
commas and line ends belong to the field up to the closing quote, and a quote written twice is one.
What stands between the closing quote and the next comma or line end is added to the field. A byte
order mark at the very beginning is dropped. The bytes of a field need not be text.
-/

namespace Purse.Csv

/-- A field, as bytes. -/
abbrev Field := List UInt8

/-- The fields of a line. -/
abbrev Record := List Field

/-- The byte between fields. -/
abbrev comma : UInt8 := 44

/-- The byte around fields. -/
abbrev quote : UInt8 := 34

/-- Whether a byte ends a line. -/
def isLineEnd (b : UInt8) : Bool := b == 10 || b == 13

/-- Where the reader stands. -/
inductive Place where
  /-- Before the first byte of a record. -/
  | recordStart
  /-- Before the first byte of a field other than the first. -/
  | fieldStart
  /-- In a field, outside quotes. -/
  | bare
  /-- Within quotes. -/
  | quoted
  /-- Past a quote within quotes, which either closes them or is the first of two. -/
  | closing
  deriving DecidableEq, Repr

/-- Reads bytes from a place on. The field and the record begun so far are held in reverse. -/
def scan : Place → Field → Record → List UInt8 → List Record
  | .recordStart, _, _, [] => []
  | _, field, record, [] => [(field.reverse :: record).reverse]
  | .quoted, field, record, b :: bs =>
    if b = quote then scan .closing field record bs else scan .quoted (b :: field) record bs
  | place, field, record, b :: bs =>
    if isLineEnd b then
      if place = .recordStart then scan .recordStart [] [] bs
      else (field.reverse :: record).reverse :: scan .recordStart [] [] bs
    else if b = comma then scan .fieldStart [] (field.reverse :: record) bs
    else if b = quote ∧ (place = .recordStart ∨ place = .fieldStart) then
      scan .quoted field record bs
    else if b = quote ∧ place = .closing then scan .quoted (b :: field) record bs
    else scan .bare (b :: field) record bs

/-- The bytes without a byte order mark before them. -/
def dropMark : List UInt8 → List UInt8
  | 0xEF :: 0xBB :: 0xBF :: bs => bs
  | bs => bs

/-- The records of a text. -/
def records (bs : List UInt8) : List Record :=
  scan .recordStart [] [] (dropMark bs)

/-- The text of a field, where it is one. -/
def Field.text? (f : Field) : Option String := String.fromUTF8? ⟨f.toArray⟩

end Purse.Csv
