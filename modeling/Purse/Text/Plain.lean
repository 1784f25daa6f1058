/-!
# Plain text

What is left of a text that was meant for a terminal. Control sequences open with the escape character,
and what belongs to them is left out, as are control characters that are no white space. White space
within a sequence is kept; what follows it, up to the next character that is left out, is kept as well.
-/

namespace Purse.Plain

/-- What a character of a text may belong to. -/
inductive Mode where
  /-- The text itself. -/
  | ground
  /-- A sequence of which only the escape character has come. -/
  | escape
  /-- A short sequence, up to its last character. -/
  | short
  /-- A sequence with numbers, up to its last character. -/
  | numbered
  /-- A string that the bell ends. -/
  | command
  /-- A string that only another sequence ends. -/
  | string
  deriving DecidableEq, Repr

/-- The escape character. -/
def escapeChar : Char := '\x1b'

/-- The bell. -/
def bell : Char := '\x07'

/-- Whether a character gives a sequence up. -/
def isAbort (c : Char) : Bool := c == '\x18' || c == '\x1a'

/-- Whether a character is white space of ASCII and a control character. -/
def isLayout (c : Char) : Bool := c == '\t' || c == '\n' || c == '\x0c' || c == '\r'

/-- Whether a character of the text itself is left out. -/
def isHidden (c : Char) : Bool := (c.toNat < 0x20 && !isLayout c) || c == '\x7f'

/-- What comes after the character behind the escape character. -/
def afterEscape (c : Char) : Mode :=
  if c = '[' then .numbered
  else if c = ']' then .command
  else if c ∈ ['P', 'X', '^', '_'] then .string
  else if 0x20 ≤ c.toNat && c.toNat ≤ 0x2F then .short
  else if 0x30 ≤ c.toNat && c.toNat ≤ 0x7E then .ground
  else .escape

/-- What comes after a character. -/
def Mode.after (m : Mode) (c : Char) : Mode :=
  if c = escapeChar then .escape
  else if isAbort c then .ground
  else match m with
    | ground => .ground
    | escape => afterEscape c
    | short => if 0x30 ≤ c.toNat && c.toNat ≤ 0x7E then .ground else .short
    | numbered => if 0x40 ≤ c.toNat && c.toNat ≤ 0x7E then .ground else .numbered
    | command => if c = bell then .ground else .command
    | string => .string

/-- Whether a character that opens no sequence is kept. -/
def Mode.keeps (m : Mode) (c : Char) : Bool :=
  match m with
  | ground => !isHidden c
  | escape | short | numbered => isLayout c
  | command | string => false

/-- Leaves out what does not belong to the text. While characters are being kept, one that is not
hidden is kept whatever was open before. -/
def strip (m : Mode) (keeping : Bool) : List Char → List Char
  | [] => []
  | c :: cs =>
    if keeping && !isHidden c then
      c :: strip (if 0x80 ≤ c.toNat then .ground else m) true cs
    else if m.keeps c then c :: strip (m.after c) true cs
    else strip (m.after c) false cs

/-- The text without what a terminal would not show. -/
def text (s : String) : String := String.ofList (strip .ground false s.toList)

end Purse.Plain
