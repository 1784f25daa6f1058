import Purse.Json.Range
import Purse.Json.Text

/-!
# Values that do not matter

Two readings of values that are not wanted. A value in a field of another name is passed over by
`skipValue`, which checks that it is JSON. A value of the wrong kind in a field that counts is read by
`wrongKind` just far enough to tell whether it is of the wrong kind or flawed in itself.
-/

namespace Purse.Json

/-- Whether a character may stand between the parts of a document. -/
def isSpace (c : Char) : Bool := c == ' ' || c == '\n' || c == '\t' || c == '\r'

/-- The document from its next part on. -/
def skipSpace (cs : List Char) : List Char := cs.dropWhile isSpace

/-- Whether a character is a decimal digit. -/
def isDigit (c : Char) : Bool := (Positional.decimalDigit? c).isSome

/-- Passes over the rest of a word. -/
def skipWord : List Char → List Char → Except Flaw (List Char)
  | [], cs => .ok cs
  | _ :: _, [] => .error .truncated
  | w :: ws, c :: cs => if c = w then skipWord ws cs else .error .malformed

/-! ## Numbers -/

/-- The digits before the point: a lone zero, or a run without a leading zero. -/
def skipWhole : List Char → Option (List Char)
  | [] => none
  | c :: cs =>
    if c = '0' then (if (cs.head?).any isDigit then none else some cs)
    else if isDigit c then some (cs.dropWhile isDigit)
    else none

/-- A point and the digits after it, if there is a point. -/
def skipFraction : List Char → Option (List Char)
  | '.' :: c :: cs => if isDigit c then some (cs.dropWhile isDigit) else none
  | ['.'] => none
  | cs => some cs

/-- The sign of an exponent, if there is one. -/
def skipSign : List Char → List Char
  | '+' :: cs | '-' :: cs => cs
  | cs => cs

/-- Whether a character opens an exponent. -/
def isExponentMark (c : Char) : Bool := c == 'e' || c == 'E'

/-- An exponent, if there is one. -/
def skipExponent : List Char → Option (List Char)
  | [] => some []
  | c :: cs =>
    if isExponentMark c then
      match skipSign cs with
      | d :: ds => if isDigit d then some (ds.dropWhile isDigit) else none
      | [] => none
    else some (c :: cs)

/-- Passes over a number from behind its sign. -/
def skipNumber (cs : List Char) : Except Flaw (List Char) :=
  match (skipWhole cs).bind skipFraction |>.bind skipExponent with
  | some rest => .ok rest
  | none => .error .malformed

/-- The digits at the head of a text. -/
def leadingDigits (cs : List Char) : List Nat := (cs.takeWhile isDigit).filterMap Positional.decimalDigit?

/-- What is wrong with a number that stands for something else, from behind its sign. A number without
the digits it needs is truncated where the document ends there. -/
def numberFlaw (cs : List Char) : Flaw :=
  match cs with
  | [] => .truncated
  | _ =>
    match skipWhole cs with
    | none => .malformed
    | some ['.'] => .truncated
    | some afterWhole =>
      match skipFraction afterWhole with
      | none => .malformed
      | some afterFraction =>
        let fraction := match afterWhole with
          | '.' :: ds => leadingDigits ds
          | _ => []
        let range (exponent : Int) : Flaw :=
          if (Kept.ofDigits (leadingDigits cs) fraction exponent).isPastDoubles then .malformed
          else .unfit
        match afterFraction with
        | [] => range 0
        | c :: ds =>
          if isExponentMark c then
            match skipSign ds with
            | [] => .truncated
            | e :: es =>
              if isDigit e then
                let size : Int := Positional.value 10 (leadingDigits (e :: es))
                range (if ds.head? = some '-' then -size else size)
              else .malformed
          else range 0

/-- What is wrong with a value that is of the wrong kind for its field. -/
def wrongKind : List Char → Flaw
  | [] => .truncated
  | 'n' :: cs => ofSkip (skipWord ['u', 'l', 'l'] cs)
  | 't' :: cs => ofSkip (skipWord ['r', 'u', 'e'] cs)
  | 'f' :: cs => ofSkip (skipWord ['a', 'l', 's', 'e'] cs)
  | '-' :: cs => numberFlaw cs
  | '"' :: cs =>
    match readText none cs with
    | .ok _ => .unfit
    | .error flaw => flaw
  | c :: cs =>
    if isDigit c then numberFlaw (c :: cs)
    else if c = '[' ∨ c = '\x7b' then .unfit
    else .malformed
where
  /-- A word that is right is of the wrong kind. -/
  ofSkip : Except Flaw (List Char) → Flaw
    | .ok _ => .unfit
    | .error flaw => flaw

/-! ## Any value -/

/-- What a value that is passed over lies in. -/
inductive Frame where
  | array
  | object
  deriving DecidableEq, Repr

/-- What is expected next. -/
inductive Expected where
  /-- A value. -/
  | value
  /-- The first element of a frame, or its end. -/
  | first
  /-- A comma or the end of the innermost frame. -/
  | next
  deriving DecidableEq, Repr

/-- The name of a member and its colon. -/
def skipName (cs : List Char) : Except Flaw (List Char) :=
  match skipSpace cs with
  | [] => .error .truncated
  | '"' :: cs => do
    let rest ← skipText cs
    match skipSpace rest with
    | [] => .error .truncated
    | ':' :: rest => .ok rest
    | _ => .error .malformed
  | _ => .error .malformed

/-- What comes before the next value of a frame. -/
def skipLead : Frame → List Char → Except Flaw (List Char)
  | .array, cs => .ok cs
  | .object, cs => skipName cs

/-- The character that ends a frame. -/
def Frame.close : Frame → Char
  | array => ']'
  | object => '\x7d'

/-- A value that lies in no other. -/
def skipScalar : Char → List Char → Except Flaw (List Char)
  | 'n', cs => skipWord ['u', 'l', 'l'] cs
  | 't', cs => skipWord ['r', 'u', 'e'] cs
  | 'f', cs => skipWord ['a', 'l', 's', 'e'] cs
  | '-', cs => skipNumber cs
  | '"', cs => skipText cs
  | c, cs => if isDigit c then skipNumber (c :: cs) else .error .malformed

/-- Passes over what is expected within frames, for a number of turns. -/
def skipTurns : Nat → Expected → List Frame → List Char → Except Flaw (List Char)
  | 0, _, _, _ => .error .truncated
  | _ + 1, .next, [], cs => .ok cs
  | _ + 1, .first, [], cs => .ok cs
  | turns + 1, .value, frames, cs =>
    match skipSpace cs with
    | [] => .error .truncated
    | '[' :: rest => skipTurns turns .first (.array :: frames) rest
    | '\x7b' :: rest => skipTurns turns .first (.object :: frames) rest
    | c :: rest => do skipTurns turns .next frames (← skipScalar c rest)
  | turns + 1, .first, f :: frames, cs =>
    match skipSpace cs with
    | [] => .error .truncated
    | c :: rest =>
      if c = f.close then skipTurns turns .next frames rest
      else do skipTurns turns .value (f :: frames) (← skipLead f (c :: rest))
  | turns + 1, .next, f :: frames, cs =>
    match skipSpace cs with
    | [] => .error .truncated
    | c :: rest =>
      if c = f.close then skipTurns turns .next frames rest
      else if c = ',' then do skipTurns turns .value (f :: frames) (← skipLead f rest)
      else .error .malformed

/-- Passes over a value. Every second turn takes a character at least. -/
def skipValue (cs : List Char) : Except Flaw (List Char) :=
  skipTurns (2 * cs.length + 2) .value [] cs

end Purse.Json
