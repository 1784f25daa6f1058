import Mathlib.Data.Fintype.Card
import Mathlib.Data.Finite.Prod
import Mathlib.Data.String.Basic
import Purse.Id.Wallet

/-!
# The canonical text of wallet ids

Rows are kept by the value of an id and locked by the order of its text. The two go together: an id is
read back from its text, and ids ascend as their texts do.

## Results

* `WalletId.parse_text`: an id is read back from its text.
* `WalletId.text_injective`: ids with one text are one id.
* `WalletId.text_le_text`: ids are in order by their texts if they are by their values.
* `WalletId.wellFounded_above`: there is no endless ascent among the texts of ids.
-/

namespace Purse

/-- Where no character is blank, nothing is trimmed. -/
theorem trimmed_of_forall {cs : List Char} (hChars : ∀ c ∈ cs, isBlank c = false) :
    trimmed cs = cs := by
  have hKept : ∀ {ds : List Char}, (∀ c ∈ ds, isBlank c = false) → ds.dropWhile isBlank = ds := by
    intro ds hNone
    cases ds with
    | nil => rfl
    | cons d ds => exact List.dropWhile_cons_of_neg (by simp [hNone d List.mem_cons_self])
  rw [trimmed, hKept hChars, hKept (by simpa using hChars), List.reverse_reverse]

namespace Positional

variable {base width m n : Nat}

theorem lt_of_mem_digits {d : Nat} (hBase : 0 < base) (hMem : d ∈ digits base width n) :
    d < base := by
  induction width generalizing n with
  | zero => simp [digits] at hMem
  | succ width ih =>
    rw [digits, List.mem_append, List.mem_singleton] at hMem
    rcases hMem with hMem | rfl
    · exact ih hMem
    · exact Nat.mod_lt n hBase

/-- What comes after texts of one length does not count where they differ. -/
theorem append_singleton_lt {cs ds : List Char} {x y : Char} (hLength : cs.length = ds.length)
    (hFirst : cs < ds) : cs ++ [x] < ds ++ [y] := by
  induction cs generalizing ds with
  | nil =>
    obtain rfl := List.length_eq_zero_iff.mp hLength.symm
    simp at hFirst
  | cons c cs ih =>
    cases ds with
    | nil => simp at hLength
    | cons d ds =>
      rw [List.cons_append, List.cons_append, List.cons_lt_cons_iff]
      rcases List.cons_lt_cons_iff.mp hFirst with hHead | ⟨rfl, hRest⟩
      · exact Or.inl hHead
      · exact Or.inr ⟨rfl, ih (Nat.succ.inj hLength) hRest⟩

/-- At a fixed width, numbers written with characters that ascend are in order by their texts. -/
theorem map_digits_lt {charOf : Nat → Char}
    (hAscends : ∀ d < base, ∀ e < base, d < e → charOf d < charOf e) (hLess : m < n)
    (hRoom : n < Nat.pow base width) :
    (digits base width m).map charOf < (digits base width n).map charOf := by
  induction width generalizing m n with
  | zero =>
    have hOne : n < 1 := hRoom
    omega
  | succ width ih =>
    have hBase : 0 < base := by
      rcases Nat.eq_zero_or_pos base with rfl | hPos
      · simp at hRoom
      · exact hPos
    have hM := Nat.div_add_mod m base
    have hN := Nat.div_add_mod n base
    rw [digits, digits, List.map_append, List.map_append]
    rcases Nat.lt_or_ge (m / base) (n / base) with hUpper | hUpper
    · refine append_singleton_lt (by simp) (ih hUpper ?_)
      rw [Nat.div_lt_iff_lt_mul hBase]
      exact hRoom
    · -- all digits but the last are the same
      have hSame : m / base = n / base :=
        Nat.le_antisymm (Nat.div_le_div_right (Nat.le_of_lt hLess)) hUpper
      rw [hSame] at hM ⊢
      have hLast : m % base < n % base := by omega
      refine List.append_left_lt (List.cons_lt_cons_iff.mpr (Or.inl ?_))
      exact hAscends _ (Nat.mod_lt m hBase) _ (Nat.mod_lt n hBase) hLast

end Positional

namespace WalletId

variable {a b : WalletId}

/-- The digits have room for every id. -/
theorem val_lt_pow (id : WalletId) : id.val < Nat.pow 32 width :=
  Nat.lt_trans id.val_lt (by decide)

theorem charOf_ascends : ∀ d < 32, ∀ e < 32, d < e →
    Positional.charOf alphabet d < Positional.charOf alphabet e := by
  decide

theorem utf8Size_charOf : ∀ d < 32, (Positional.charOf alphabet d).utf8Size = 1 := by decide

/-- A digit is read from the character that it is written with. -/
theorem digit?_charOf : ∀ d < 32, digit? (Positional.charOf alphabet d) = some d := by decide

theorem utf8Len_map_charOf {ds : List Nat} (hDigits : ∀ d ∈ ds, d < 32) :
    String.utf8Len (ds.map (Positional.charOf alphabet)) = ds.length := by
  induction ds with
  | nil => rfl
  | cons d ds ih =>
    rw [List.map_cons, String.utf8Len_cons, utf8Size_charOf d (hDigits d List.mem_cons_self),
      ih fun e hMem => hDigits e (List.mem_cons_of_mem d hMem)]
    rfl

theorem mapM_digit?_charOf {ds : List Nat} (hDigits : ∀ d ∈ ds, d < 32) :
    (ds.map (Positional.charOf alphabet)).mapM digit? = some ds := by
  induction ds with
  | nil => rfl
  | cons d ds ih =>
    rw [List.map_cons, List.mapM_cons, digit?_charOf d (hDigits d List.mem_cons_self),
      ih fun e hMem => hDigits e (List.mem_cons_of_mem d hMem)]
    rfl

theorem ofNat_val (id : WalletId) : ofNat id.val = id := by
  cases id with
  | mk val hLess => simp only [ofNat, Nat.mod_eq_of_lt hLess]

/-- An id is read back from its text. -/
theorem parse_text (id : WalletId) : parse id.text = .ok id := by
  have hDigits : ∀ d ∈ Positional.digits 32 width id.val, d < 32 := fun d hMem =>
    Positional.lt_of_mem_digits (by decide) hMem
  have hSize : id.text.utf8ByteSize = width := by
    rw [text, String.utf8ByteSize_ofList, chars, utf8Len_map_charOf hDigits,
      Positional.length_digits]
  have hValue : ofNat (Positional.value 32 (Positional.digits 32 width id.val)) = id := by
    rw [Positional.value_digits, Nat.mod_eq_of_lt id.val_lt_pow, ofNat_val]
  unfold parse
  rw [if_neg (not_not_intro hSize), text, String.toList_ofList, chars, mapM_digit?_charOf hDigits]
  exact congrArg Except.ok hValue

theorem isBlank_charOf : ∀ d < 32, isBlank (Positional.charOf alphabet d) = false := by decide

/-- There is nothing to be trimmed about the text of an id. -/
theorem trim_text (id : WalletId) : trim id.text = id.text := by
  have hChars : ∀ c ∈ id.chars, isBlank c = false := by
    intro c hMem
    obtain ⟨d, hDigit, rfl⟩ := List.mem_map.mp hMem
    exact isBlank_charOf d (Positional.lt_of_mem_digits (by decide) hDigit)
  rw [trim, text, String.toList_ofList, trimmed_of_forall hChars]

theorem parseTrimmed?_text (id : WalletId) : parseTrimmed? id.text = some id := by
  rw [parseTrimmed?, trim_text, parse_text]
  rfl

theorem text_injective (hText : a.text = b.text) : a = b := by
  have hParse := a.parse_text
  rw [hText, b.parse_text] at hParse
  exact (Except.ok.inj hParse).symm

theorem text_lt_text (hLess : a.val < b.val) : a.text < b.text := by
  rw [String.lt_iff_toList_lt, text, text, String.toList_ofList, String.toList_ofList]
  exact Positional.map_digits_lt charOf_ascends hLess b.val_lt_pow

/-- Ids are in order by their texts if they are by their values. -/
theorem text_le_text : a.text ≤ b.text ↔ a.val ≤ b.val := by
  constructor
  · intro hText
    by_contra hNot
    exact absurd (text_lt_text (Nat.lt_of_not_le hNot)) (String.not_lt.mpr hText)
  · intro hVal
    rcases Nat.lt_or_eq_of_le hVal with hLess | hSame
    · exact String.not_lt.mp (String.lt_asymm (text_lt_text hLess))
    · cases a
      cases b
      cases hSame
      exact String.le_refl _

instance : Finite WalletId :=
  Finite.of_injective (fun id => (⟨id.val, id.val_lt⟩ : Fin count)) fun a b hSame => by
    cases a
    cases b
    cases hSame
    rfl

/-- There is no endless ascent among the texts of ids. -/
theorem wellFounded_above : WellFounded fun a b : WalletId => b.text < a.text := by
  have : IsTrans WalletId fun a b => b.text < a.text :=
    ⟨fun _ _ _ hAB hBC => String.lt_trans hBC hAB⟩
  have : Std.Irrefl fun a b : WalletId => b.text < a.text := ⟨fun a => String.lt_irrefl a.text⟩
  exact Finite.wellFounded_of_trans_of_irrefl _

end WalletId

end Purse
