import Purse.Text.Positional

/-!
# JSON strings

Strings as they are written between quotes. The writer escapes quotes, backslashes and control
characters, and nothing else. The reader takes every escape of the standard; a character outside the
first plane may be given by two escapes, a leading and a trailing surrogate, and neither may stand
alone. A reader gives the first flaw that it meets.
-/

namespace Purse.Json

/-- Why a document is refused. -/
inductive Flaw where
  /-- The document is no JSON. -/
  | malformed
  /-- The document is JSON, but not of the form that is read. -/
  | unfit
  /-- The document ends too early. -/
  | truncated
  deriving DecidableEq, Repr

/-! ## Writing -/

/-- The hexadecimal digits that the writer uses. -/
def hexDigits : List Char := "0123456789abcdef".toList

/-- A character within quotes. -/
def escaped (c : Char) : List Char :=
  if c = '"' then ['\\', '"']
  else if c = '\\' then ['\\', '\\']
  else if c = '\n' then ['\\', 'n']
  else if c = '\r' then ['\\', 'r']
  else if c = '\t' then ['\\', 't']
  else if c = '\x08' then ['\\', 'b']
  else if c = '\x0c' then ['\\', 'f']
  else if c.toNat < 0x20 then
    '\\' :: 'u' :: (Positional.digits 16 4 c.toNat).map (Positional.charOf hexDigits)
  else [c]

/-- A string in quotes. -/
def quoted (cs : List Char) : List Char := '"' :: (cs.flatMap escaped ++ ['"'])

/-! ## Reading -/

/-- The character that an escape of one letter stands for. -/
def unescaped? : Char → Option Char
  | '"' => some '"'
  | '\\' => some '\\'
  | '/' => some '/'
  | 'b' => some '\x08'
  | 'f' => some '\x0c'
  | 'n' => some '\n'
  | 'r' => some '\r'
  | 't' => some '\t'
  | _ => none

/-- The number that four hexadecimal digits denote. -/
def code? (a b c d : Char) : Option Nat :=
  ([a, b, c, d].mapM fun x => Positional.digitOf? hexDigits x.toLower).map (Positional.value 16)

/-- Whether a code is the first half of a pair. -/
def isLeading (n : Nat) : Bool := 0xD800 ≤ n && n ≤ 0xDBFF

/-- Whether a code is the second half of a pair. -/
def isTrailing (n : Nat) : Bool := 0xDC00 ≤ n && n ≤ 0xDFFF

/-- The character of a pair. -/
def paired (leading trailing : Nat) : Char :=
  Char.ofNat (0x10000 + (leading - 0xD800) * 0x400 + (trailing - 0xDC00))

/-- The flaw of an escape by number that has not four characters left for it. Bytes are what counts:
with four of them the digits are wrong, with fewer the document is too short. -/
def shortCodeFlaw (rest : List Char) : Flaw :=
  if (String.ofList rest).utf8ByteSize < 4 then .truncated else .malformed

/-- Puts a character before what is read after it. -/
def before (c : Char) : Except Flaw (List Char × List Char) → Except Flaw (List Char × List Char)
  | .ok (cs, rest) => .ok (c :: cs, rest)
  | .error flaw => .error flaw

/-- Reads a string from behind its opening quote, and gives what follows its closing quote. The first
half of a pair that was just read is given. -/
def readText (leading : Option Nat) : List Char → Except Flaw (List Char × List Char)
  | [] => .error .truncated
  | '\\' :: 'u' :: a :: b :: c :: d :: cs =>
    match code? a b c d, leading with
    | none, _ => .error .malformed
    | some n, none =>
      if isTrailing n then .error .malformed
      else if isLeading n then readText (some n) cs
      else before (Char.ofNat n) (readText none cs)
    | some n, some m =>
      if isTrailing n then before (paired m n) (readText none cs) else .error .malformed
  | '\\' :: 'u' :: cs => .error (shortCodeFlaw cs)
  | ['\\'] => .error .truncated
  | '\\' :: c :: cs =>
    match leading, unescaped? c with
    | none, some e => before e (readText none cs)
    | _, _ => .error .malformed
  | c :: cs =>
    if leading.isSome then .error .malformed
    else if c = '"' then .ok ([], cs)
    else if c.toNat < 0x20 then .error .malformed
    else before c (readText none cs)

/-- Passes over a string whose content does not matter. Escapes have to be right, but surrogates need
not be in pairs. -/
def skipText : List Char → Except Flaw (List Char)
  | [] => .error .truncated
  | '\\' :: 'u' :: a :: b :: c :: d :: cs =>
    if (code? a b c d).isSome then skipText cs else .error .malformed
  | '\\' :: 'u' :: cs => .error (shortCodeFlaw cs)
  | ['\\'] => .error .truncated
  | '\\' :: c :: cs => if (unescaped? c).isSome then skipText cs else .error .malformed
  | c :: cs =>
    if c = '"' then .ok cs
    else if c.toNat < 0x20 then .error .malformed
    else skipText cs

end Purse.Json
