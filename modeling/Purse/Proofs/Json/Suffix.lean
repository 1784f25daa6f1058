import Mathlib.Data.List.Infix
import Purse.Json.Form

/-!
# What is left of a document

Every reader of a part leaves the end of what it was given: nothing is made up, and nothing is read twice.

## Results

* `Json.readText_suffix`: strings.
* `Json.skipValue_suffix`: values that are passed over.
* `Json.readName_suffix`: the names of members.
-/

namespace Purse

namespace Json

variable {cs rest : List Char} {s : List Char}

theorem bind_eq_ok_iff {α β : Type} {x : Except Flaw α} {f : α → Except Flaw β} {b : β} :
    (x >>= f) = .ok b ↔ ∃ a, x = .ok a ∧ f a = .ok b := by
  cases x with
  | error flaw => exact ⟨nofun, nofun⟩
  | ok a => exact ⟨fun h => ⟨a, rfl, h⟩, fun ⟨_, hSame, h⟩ => Except.ok.inj hSame ▸ h⟩

theorem skipSpace_suffix (cs : List Char) : skipSpace cs <:+ cs := List.dropWhile_suffix _

theorem suffix_of_skipSpace {c : Char} (hSpace : skipSpace cs = c :: rest) : rest <:+ cs :=
  (List.suffix_cons c rest).trans (hSpace ▸ skipSpace_suffix cs)

theorem before_eq_ok {c : Char} {read : Except Flaw (List Char × List Char)}
    (hBefore : before c read = .ok (s, rest)) : ∃ s', read = .ok (s', rest) ∧ s = c :: s' := by
  cases read with
  | error flaw => cases hBefore
  | ok pair =>
    obtain ⟨s', rest'⟩ := pair
    cases hBefore
    exact ⟨s', rfl, rfl⟩

/-- A string leaves what follows its closing quote. -/
theorem readText_suffix {leading : Option Nat} (hRead : readText leading cs = .ok (s, rest)) :
    rest <:+ cs := by
  fun_induction readText leading cs generalizing s with
  | case4 a b c d cs n hCode _ _ ih =>
    exact (ih hRead).trans (List.suffix_append ['\\', 'u', a, b, c, d] cs)
  | case5 a b c d cs n hCode _ _ ih =>
    obtain ⟨_, hRest, -⟩ := before_eq_ok hRead
    exact (ih hRest).trans (List.suffix_append ['\\', 'u', a, b, c, d] cs)
  | case6 a b c d cs n m hCode _ ih =>
    obtain ⟨_, hRest, -⟩ := before_eq_ok hRead
    exact (ih hRest).trans (List.suffix_append ['\\', 'u', a, b, c, d] cs)
  | case10 c cs _ _ e hEscape ih =>
    obtain ⟨_, hRest, -⟩ := before_eq_ok hRead
    exact (ih hRest).trans (List.suffix_append ['\\', c] cs)
  | case13 leading cs =>
    cases hRead
    exact List.suffix_cons _ _
  | case15 leading c cs _ _ _ _ _ _ _ ih =>
    obtain ⟨_, hRest, -⟩ := before_eq_ok hRead
    exact (ih hRest).trans (List.suffix_cons c cs)
  | case1 | case2 | case3 | case7 | case8 | case9 | case11 | case12 | case14 => cases hRead

theorem skipText_suffix (hSkip : skipText cs = .ok rest) : rest <:+ cs := by
  fun_induction skipText cs with
  | case2 a b c d cs hCode ih =>
    exact (ih hSkip).trans (List.suffix_append ['\\', 'u', a, b, c, d] cs)
  | case6 c cs _ _ hEscape ih => exact (ih hSkip).trans (List.suffix_append ['\\', c] cs)
  | case8 cs =>
    cases hSkip
    exact List.suffix_cons _ _
  | case10 c cs _ _ _ _ _ _ ih => exact (ih hSkip).trans (List.suffix_cons c cs)
  | case1 | case3 | case4 | case5 | case7 | case9 => cases hSkip

theorem skipWord_suffix {word : List Char} (hSkip : skipWord word cs = .ok rest) : rest <:+ cs := by
  fun_induction skipWord word cs with
  | case1 cs =>
    cases hSkip
    exact List.suffix_refl _
  | case3 ws c cs ih => exact (ih hSkip).trans (List.suffix_cons c cs)
  | case2 | case4 => cases hSkip

-- ---------------------------------------------------------------------------
-- Numbers
-- ---------------------------------------------------------------------------

theorem skipWhole_suffix (hSkip : skipWhole cs = some rest) : rest <:+ cs := by
  cases cs with
  | nil => cases hSkip
  | cons c cs =>
    simp only [skipWhole] at hSkip
    split at hSkip
    · split at hSkip
      · cases hSkip
      · cases hSkip
        exact List.suffix_cons _ _
    split at hSkip
    · cases hSkip
      exact (List.dropWhile_suffix _).trans (List.suffix_cons c cs)
    · cases hSkip

theorem skipFraction_suffix (hSkip : skipFraction cs = some rest) : rest <:+ cs := by
  unfold skipFraction at hSkip
  split at hSkip
  · next c cs =>
    split at hSkip
    · cases hSkip
      exact (List.dropWhile_suffix _).trans (List.suffix_append ['.', c] cs)
    · cases hSkip
  · cases hSkip
  · cases hSkip
    exact List.suffix_refl _

theorem skipSign_suffix (cs : List Char) : skipSign cs <:+ cs := by
  unfold skipSign
  split
  · exact List.suffix_cons _ _
  · exact List.suffix_cons _ _
  · exact List.suffix_refl _

theorem skipExponent_suffix (hSkip : skipExponent cs = some rest) : rest <:+ cs := by
  unfold skipExponent at hSkip
  split at hSkip
  · cases hSkip
    exact List.suffix_refl _
  · next c cs =>
    split at hSkip
    · split at hSkip
      · next d ds hSign =>
        split at hSkip
        · cases hSkip
          have hDigits : ds <:+ cs := (List.suffix_cons d ds).trans (hSign ▸ skipSign_suffix cs)
          exact (List.dropWhile_suffix _).trans (hDigits.trans (List.suffix_cons c cs))
        · cases hSkip
      · cases hSkip
    · cases hSkip
      exact List.suffix_refl _

theorem skipNumber_suffix (hSkip : skipNumber cs = .ok rest) : rest <:+ cs := by
  unfold skipNumber at hSkip
  split at hSkip
  · next hParts =>
    cases hSkip
    obtain ⟨afterFraction, hFraction, hExponent⟩ := Option.bind_eq_some_iff.mp hParts
    obtain ⟨afterWhole, hWhole, hFraction⟩ := Option.bind_eq_some_iff.mp hFraction
    exact (skipExponent_suffix hExponent).trans
      ((skipFraction_suffix hFraction).trans (skipWhole_suffix hWhole))
  · cases hSkip

-- ---------------------------------------------------------------------------
-- Values that are passed over
-- ---------------------------------------------------------------------------

theorem skipName_suffix (hSkip : skipName cs = .ok rest) : rest <:+ cs := by
  unfold skipName at hSkip
  split at hSkip
  · cases hSkip
  · next after hSpace =>
    obtain ⟨behind, hText, hSkip⟩ := bind_eq_ok_iff.mp hSkip
    split at hSkip
    · cases hSkip
    · next hColon =>
      cases hSkip
      exact (suffix_of_skipSpace hColon).trans ((skipText_suffix hText).trans
        (suffix_of_skipSpace hSpace))
    · cases hSkip
  · cases hSkip

theorem skipLead_suffix {frame : Frame} (hSkip : skipLead frame cs = .ok rest) : rest <:+ cs := by
  cases frame with
  | array =>
    cases hSkip
    exact List.suffix_refl _
  | object => exact skipName_suffix hSkip

theorem skipScalar_suffix {c : Char} (hSkip : skipScalar c cs = .ok rest) : rest <:+ c :: cs := by
  unfold skipScalar at hSkip
  split at hSkip
  · exact (skipWord_suffix hSkip).trans (List.suffix_cons _ _)
  · exact (skipWord_suffix hSkip).trans (List.suffix_cons _ _)
  · exact (skipWord_suffix hSkip).trans (List.suffix_cons _ _)
  · exact (skipNumber_suffix hSkip).trans (List.suffix_cons _ _)
  · exact (skipText_suffix hSkip).trans (List.suffix_cons _ _)
  · split at hSkip
    · exact skipNumber_suffix hSkip
    · cases hSkip

theorem skipTurns_suffix {turns : Nat} {expected : Expected} {frames : List Frame}
    (hSkip : skipTurns turns expected frames cs = .ok rest) : rest <:+ cs := by
  fun_induction skipTurns turns expected frames cs with
  | case2 | case3 =>
    cases hSkip
    exact List.suffix_refl _
  | case5 turns frames cs after hSpace ih | case6 turns frames cs after hSpace ih
  | case9 turns frame frames cs after hSpace ih | case12 turns frame frames cs after hSpace ih =>
    exact (ih hSkip).trans (suffix_of_skipSpace hSpace)
  | case7 turns frames cs c after _ _ hSpace ih =>
    obtain ⟨behind, hScalar, hSkip⟩ := bind_eq_ok_iff.mp hSkip
    exact (ih behind hSkip).trans ((skipScalar_suffix hScalar).trans (hSpace ▸ skipSpace_suffix cs))
  | case10 turns frame frames cs c after hSpace _ ih =>
    obtain ⟨behind, hLead, hSkip⟩ := bind_eq_ok_iff.mp hSkip
    exact (ih behind hSkip).trans ((skipLead_suffix hLead).trans (hSpace ▸ skipSpace_suffix cs))
  | case13 turns frame frames cs after hSpace _ ih =>
    obtain ⟨behind, hLead, hSkip⟩ := bind_eq_ok_iff.mp hSkip
    exact (ih behind hSkip).trans ((skipLead_suffix hLead).trans (suffix_of_skipSpace hSpace))
  | case1 | case4 | case8 | case11 | case14 => cases hSkip

theorem skipValue_suffix (hSkip : skipValue cs = .ok rest) : rest <:+ cs := skipTurns_suffix hSkip

-- ---------------------------------------------------------------------------
-- Names
-- ---------------------------------------------------------------------------

theorem expect_suffix {c : Char} (hExpect : expect c cs = .ok rest) : rest <:+ cs := by
  unfold expect at hExpect
  split at hExpect
  · cases hExpect
  · next hSpace =>
    split at hExpect
    · cases hExpect
      exact suffix_of_skipSpace hSpace
    · cases hExpect

theorem readName_suffix {name : String} (hName : readName cs = .ok (name, rest)) : rest <:+ cs := by
  obtain ⟨after, hQuote, hName⟩ := bind_eq_ok_iff.mp hName
  obtain ⟨⟨s, behind⟩, hText, hName⟩ := bind_eq_ok_iff.mp hName
  cases hName
  exact (readText_suffix hText).trans (expect_suffix hQuote)

end Json

end Purse
