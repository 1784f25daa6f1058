import Mathlib.Data.String.Basic
import Mathlib.Tactic.SplitIfs

/-!
# Texts in the order of their bytes

Texts are compared character by character here, and byte by byte wherever they are kept as UTF-8. The
two orders are one: characters have their codes in the order of their bytes, and no character's bytes
are the beginning of another one's.

## Results

* `encode_lt`, `encode_not_begins`: the bytes of one character and of a greater one.
* `bytesOf_lt_bytesOf`: texts are in order by their bytes if they are by their characters.
-/

namespace Purse

/-- The bytes of a text. -/
def bytesOf (text : String) : List UInt8 := text.toUTF8.data.toList

theorem bytesOf_eq (text : String) : bytesOf text = text.toList.flatMap String.utf8EncodeChar := by
  unfold bytesOf
  rw [String.toUTF8_eq_toByteArray, ← String.utf8Encode_toList]
  exact congrArg Array.toList List.data_toByteArray

-- ---------------------------------------------------------------------------
-- One character
-- ---------------------------------------------------------------------------

/-- The bits of a code in groups of six, from the lowest on. -/
theorem div_sixes (v : Nat) : v / 4096 = v / 64 / 64 ∧ v / 262144 = v / 64 / 64 / 64 := by
  omega

theorem code_lt (c : Char) : c.val.toNat < 1114112 := by
  have hValid := c.valid
  simp only [UInt32.isValidChar, Nat.isValidChar] at hValid
  omega

/-- The first byte grows with the number of those that follow, and within one number the bytes are the
bits of the code from the highest on. -/
theorem encode_lt {c d : Char} (hLess : c < d) : String.utf8EncodeChar c < String.utf8EncodeChar d := by
  have hCode : c.val.toNat < d.val.toNat := UInt32.lt_iff_toNat_lt.mp hLess
  have hBound := code_lt d
  unfold String.utf8EncodeChar
  generalize c.val.toNat = v at *
  generalize d.val.toNat = w at *
  simp only [(div_sixes v).1, (div_sixes v).2, (div_sixes w).1, (div_sixes w).2]
  split_ifs
  all_goals
    simp only [List.cons_lt_cons_iff, UInt8.lt_iff_toNat_lt, ← UInt8.toNat_inj, UInt8.toNat_ofNat',
      List.nil_lt_cons, List.not_lt_nil, and_true, and_false, or_false]
    omega

/-- No character's bytes are the beginning of a greater one's. -/
theorem encode_not_begins {c d : Char} (hLess : c < d) :
    ¬ String.utf8EncodeChar c <+: String.utf8EncodeChar d := by
  have hCode : c.val.toNat < d.val.toNat := UInt32.lt_iff_toNat_lt.mp hLess
  have hBound := code_lt d
  unfold String.utf8EncodeChar
  generalize c.val.toNat = v at *
  generalize d.val.toNat = w at *
  simp only
  split_ifs
  all_goals
    simp only [List.cons_prefix_cons, ← UInt8.toNat_inj, UInt8.toNat_ofNat', List.nil_prefix,
      List.prefix_nil, List.cons_ne_nil, and_true, and_false, not_false_eq_true]
  all_goals omega

theorem encode_ne_nil (c : Char) : String.utf8EncodeChar c ≠ [] := by
  intro hNil
  have hSize : 0 < c.utf8Size := c.utf8Size_pos
  rw [← String.length_utf8EncodeChar, hNil] at hSize
  exact Nat.lt_irrefl 0 hSize

-- ---------------------------------------------------------------------------
-- Texts
-- ---------------------------------------------------------------------------

/-- What comes after two lists does not count where they differ. -/
theorem append_lt_append {xs ys : List UInt8} (hLess : xs < ys) (hNot : ¬ xs <+: ys)
    (more others : List UInt8) : xs ++ more < ys ++ others := by
  induction xs generalizing ys with
  | nil => exact absurd List.nil_prefix hNot
  | cons x xs ih =>
    cases ys with
    | nil => exact absurd hLess (List.not_lt_nil _)
    | cons y ys =>
      rw [List.cons_append, List.cons_append, List.cons_lt_cons_iff]
      rcases List.cons_lt_cons_iff.mp hLess with hHead | ⟨rfl, hTail⟩
      · exact Or.inl hHead
      · refine Or.inr ⟨rfl, ih hTail ?_⟩
        intro hPrefix
        exact hNot (List.cons_prefix_cons.mpr ⟨rfl, hPrefix⟩)

theorem flatMap_encode_lt {cs ds : List Char} (hLess : cs < ds) :
    cs.flatMap String.utf8EncodeChar < ds.flatMap String.utf8EncodeChar := by
  induction cs generalizing ds with
  | nil =>
    cases ds with
    | nil => exact absurd hLess (List.not_lt_nil _)
    | cons d ds =>
      obtain ⟨b, bs, hBytes⟩ := List.exists_cons_of_ne_nil (encode_ne_nil d)
      rw [List.flatMap_cons, hBytes]
      exact List.nil_lt_cons b _
  | cons c cs ih =>
    cases ds with
    | nil => exact absurd hLess (List.not_lt_nil _)
    | cons d ds =>
      rw [List.flatMap_cons, List.flatMap_cons]
      rcases List.cons_lt_cons_iff.mp hLess with hHead | ⟨rfl, hTail⟩
      · exact append_lt_append (encode_lt hHead) (encode_not_begins hHead) _ _
      · exact List.append_left_lt (ih hTail)

/-- Texts are in order by their bytes if they are by their characters. -/
theorem bytesOf_lt_bytesOf {s t : String} : bytesOf s < bytesOf t ↔ s < t := by
  have hForward : ∀ {s t : String}, s < t → bytesOf s < bytesOf t := by
    intro s t hLess
    rw [bytesOf_eq, bytesOf_eq]
    exact flatMap_encode_lt (String.lt_iff_toList_lt.mp hLess)
  constructor
  · intro hBytes
    by_contra hNot
    rcases lt_or_eq_of_le (String.not_lt.mp hNot) with hMore | rfl
    · exact List.lt_asymm hBytes (hForward hMore)
    · exact List.lt_irrefl _ hBytes
  · exact hForward

end Purse
