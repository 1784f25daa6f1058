import Purse.Json.Text
import Purse.Proofs.Id.Wallet

/-!
# JSON strings, read back

A string is read back from what it is written as, character by character: each is written in a way that is
read as that character, whatever follows.

## Results

* `Json.readText_escaped`: one character.
* `Json.readText_flatMap`: a string, up to its closing quote.
-/

namespace Purse

namespace Json

open Positional

/-- A control character is read back from its number. -/
theorem code?_digits {n : Nat} (hLess : n < 0x20) :
    ∃ a b c d, (digits 16 4 n).map (charOf hexDigits) = [a, b, c, d] ∧ code? a b c d = some n := by
  refine ⟨_, _, _, _, rfl, ?_⟩
  revert n
  decide +kernel

theorem readText_code {a b c d : Char} {n : Nat} (hCode : code? a b c d = some n)
    (hLess : n < 0x20) (cs : List Char) :
    readText none ('\\' :: 'u' :: a :: b :: c :: d :: cs) = before (Char.ofNat n) (readText none cs) := by
  have hTrailing : isTrailing n = false := by simp [isTrailing]; omega
  have hLeading : isLeading n = false := by simp [isLeading]; omega
  rw [readText.eq_3 a b c d cs n hCode, hTrailing, hLeading]
  rfl

theorem readText_letter {c e : Char} (hLetter : c ≠ 'u') (hEscape : unescaped? c = some e)
    (cs : List Char) : readText none ('\\' :: c :: cs) = before e (readText none cs) :=
  readText.eq_7 c cs e (fun _ _ _ _ _ hCode _ => hLetter hCode) hLetter hEscape

/-- A character that needs no escape stands for itself. -/
theorem readText_plain {c : Char} (hQuote : c ≠ '"') (hEscape : c ≠ '\\') (hControl : ¬ c.toNat < 0x20)
    (cs : List Char) : readText none (c :: cs) = before c (readText none cs) := by
  rw [readText.eq_9 none c cs (fun _ _ _ _ _ h _ => hEscape h) (fun _ h _ => hEscape h)
    (fun h _ => hEscape h) (fun _ _ h _ => hEscape h), if_neg (by decide), if_neg hQuote,
    if_neg hControl]

/-- A character is read back from what it is written as. -/
theorem readText_escaped (c : Char) (cs : List Char) :
    readText none (escaped c ++ cs) = before c (readText none cs) := by
  unfold escaped
  -- seven characters have an escape of one letter
  iterate 7
    split
    · next hChar =>
      subst hChar
      exact readText_letter (by decide) rfl cs
  split
  · next hControl =>
    obtain ⟨a, b, x, d, hDigits, hCode⟩ := code?_digits hControl
    have hSame : Char.ofNat c.toNat = c := Char.ofNat_toNat c
    rw [hDigits]
    exact (readText_code hCode hControl cs).trans (congrArg (before · _) hSame)
  · next hQuote hEscape _ _ _ _ _ hControl => exact readText_plain hQuote hEscape hControl cs

/-- A string is read back up to its closing quote. -/
theorem readText_flatMap (cs rest : List Char) :
    readText none (cs.flatMap escaped ++ '"' :: rest) = .ok (cs, rest) := by
  induction cs with
  | nil => rfl
  | cons c cs ih =>
    rw [List.flatMap_cons, List.append_assoc, readText_escaped, ih]
    rfl

end Json

end Purse
