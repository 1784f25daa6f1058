import Mathlib.Data.List.DropRight
import Purse.Text.Blank
import Purse.Text.Positional

/-!
# Blanks at the ends of texts

To trim a text is to forget the blanks around it, be they few or many. What is left neither begins nor
ends with a blank, so nothing more is trimmed off it.

## Results

* `trim_append_blanks`: blanks around a text make no difference to what is left of it.
* `trim_trim`: what is left of a text is trimmed already.
* `Positional.isBlank_charOf`: no digit is a blank.
-/

namespace Purse

variable {cs before after : List Char}

/-- A text of blanks only. -/
def AllBlank (text : String) : Prop := ∀ c ∈ text.toList, isBlank c = true

instance (text : String) : Decidable (AllBlank text) := List.decidableBAll _ text.toList

theorem trimmed_append_blanks (hBefore : ∀ c ∈ before, isBlank c = true)
    (hAfter : ∀ c ∈ after, isBlank c = true) (cs : List Char) :
    trimmed (before ++ cs ++ after) = trimmed cs := by
  have hReverse : ∀ c ∈ after.reverse, isBlank c = true := fun c hMem =>
    hAfter c (List.mem_reverse.mp hMem)
  unfold trimmed
  rw [List.append_assoc, List.dropWhile_append_of_pos hBefore, List.dropWhile_append]
  -- the blanks behind go with all others, or else from the end
  cases hRest : cs.dropWhile isBlank with
  | nil => rw [List.isEmpty_nil, if_pos rfl, List.dropWhile_eq_nil_iff.mpr hAfter]
  | cons c rest =>
    rw [List.isEmpty_cons, if_neg Bool.false_ne_true, List.reverse_append,
      List.dropWhile_append_of_pos hReverse]

/-- Blanks around a text make no difference to what is left of it. -/
theorem trim_append_blanks {before after : String} (hBefore : AllBlank before)
    (hAfter : AllBlank after) (text : String) : trim (before ++ text ++ after) = trim text := by
  unfold trim
  rw [String.toList_append, String.toList_append, trimmed_append_blanks hBefore hAfter]

/-- What is left of a text does not begin with a blank, as blanks are taken from its end only after
those at its beginning. -/
theorem dropWhile_trimmed (cs : List Char) : (trimmed cs).dropWhile isBlank = trimmed cs := by
  obtain ⟨behind, hBehind⟩ := List.rdropWhile_prefix isBlank (cs.dropWhile isBlank)
  change trimmed cs ++ behind = cs.dropWhile isBlank at hBehind
  have hFirst := List.head?_dropWhile_not isBlank cs
  rw [← hBehind] at hFirst
  cases hRest : trimmed cs with
  | nil => rfl
  | cons c rest =>
    rw [hRest] at hFirst
    exact List.dropWhile_cons_of_neg (ne_true_of_eq_false hFirst)

theorem trimmed_trimmed (cs : List Char) : trimmed (trimmed cs) = trimmed cs := by
  have hTwice : (trimmed cs).rdropWhile isBlank = trimmed cs :=
    List.rdropWhile_idempotent isBlank (cs.dropWhile isBlank)
  show ((trimmed cs).dropWhile isBlank).rdropWhile isBlank = trimmed cs
  rw [dropWhile_trimmed, hTwice]

/-- What is left of a text is trimmed already. -/
theorem trim_trim (text : String) : trim (trim text) = trim text := by
  unfold trim
  rw [String.toList_ofList, trimmed_trimmed]

/-- No digit is a blank, if there is none in its alphabet. -/
theorem Positional.isBlank_charOf {alphabet : List Char} (hAlphabet : alphabet.any isBlank = false)
    (d : Nat) : isBlank (charOf alphabet d) = false := by
  rw [charOf, List.getD_eq_getElem?_getD]
  cases hDigit : alphabet[d]? with
  | none => decide
  | some c => exact eq_false_of_ne_true (List.any_eq_false.mp hAlphabet c (List.mem_of_getElem? hDigit))

end Purse
