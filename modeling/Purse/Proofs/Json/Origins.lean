import Purse.Proofs.Decimal.Scientific
import Purse.Proofs.Json.Documents
import Purse.Proofs.Json.Suffix

/-!
# Where values come from

A value that is read is what a string of the document stands for, or one that the form has for a missing
field. So if it is a zero with a sign, the document has a string that vanishes: no other string is read
as such a zero, and forms have none.

## Definitions

* `Json.HasString`: a string of a document.
* `Json.Given`: a value is a zero with a sign only if a string of the document vanishes.

## Results

* `Json.readCells_given`: the values that are read.
* `Json.Form.read_given`: what a structure is made of.
-/

namespace Purse

namespace Json

variable {k : Kind} {cell : Cell} {doc cs rest : List Char} {fields : List Field}
  {members members' : List (String × Cell)} {cells : List Cell}

/-- A string of a document: behind a quote in it, the reader of strings gives it. -/
def HasString (doc s : List Char) : Prop :=
  ∃ after rest, '"' :: after <:+ doc ∧ readText none after = .ok (s, rest)

/-- If the value is a zero with a sign, some string of the document vanishes. -/
def Given (doc : List Char) (cell : Cell) : Prop :=
  cell.plain ≠ cell →
    cell = .decimal Decimal.signedZero ∧ ∃ s, HasString doc s ∧ Decimal.Vanishes (String.ofList s)

theorem HasString.mono {s : List Char} (hString : HasString cs s) (hSuffix : cs <:+ doc) :
    HasString doc s := by
  obtain ⟨after, rest, hQuote, hText⟩ := hString
  exact ⟨after, rest, hQuote.trans hSuffix, hText⟩

theorem Given.mono (hGiven : Given cs cell) (hSuffix : cs <:+ doc) : Given doc cell := fun hSigned =>
  (hGiven hSigned).imp_right fun ⟨s, hString, hVanishes⟩ => ⟨s, hString.mono hSuffix, hVanishes⟩

theorem Given.of_plain (hPlain : cell.plain = cell) : Given doc cell := fun hSigned =>
  absurd hPlain hSigned

/-- Only decimals have signs. -/
theorem given_of_ofString? {s : List Char} (hString : HasString doc s)
    (hCell : k.ofString? (String.ofList s) = some cell) : Given doc cell := by
  cases k with
  | decimal =>
    obtain ⟨d, hRead, rfl⟩ := Option.map_eq_some_iff.mp hCell
    intro hSigned
    have hPlain : d.plain ≠ d := fun hSame => hSigned (congrArg Cell.decimal hSame)
    obtain ⟨hVanishes, rfl⟩ := Decimal.vanishes_of_signed hRead hPlain
    exact ⟨rfl, s, hString, hVanishes⟩
  | text =>
    cases hCell
    exact .of_plain rfl
  | walletId | userId | time | optionalTime | optionalUserId =>
    obtain ⟨x, -, rfl⟩ := Option.map_eq_some_iff.mp hCell
    exact .of_plain rfl

-- ---------------------------------------------------------------------------
-- Values
-- ---------------------------------------------------------------------------

theorem readStringCell_given (hRead : readStringCell k cs = .ok (cell, rest)) :
    Given cs cell ∧ rest <:+ cs := by
  unfold readStringCell at hRead
  split at hRead
  · next after hSpace =>
    obtain ⟨⟨s, behind⟩, hText, hRead⟩ := bind_eq_ok_iff.mp hRead
    simp only at hRead
    split at hRead
    · next hCell =>
      cases hRead
      have hQuote : '"' :: after <:+ cs := hSpace ▸ skipSpace_suffix cs
      exact ⟨given_of_ofString? ⟨after, _, hQuote, hText⟩ hCell,
        (readText_suffix hText).trans (suffix_of_skipSpace hSpace)⟩
    · cases hRead
  · cases hRead

theorem readCell_given (hRead : readCell k cs = .ok (cell, rest)) : Given cs cell ∧ rest <:+ cs := by
  unfold readCell at hRead
  split at hRead
  · next after _ hSpace =>
    obtain ⟨behind, hWord, hRead⟩ := bind_eq_ok_iff.mp hRead
    cases hRead
    exact ⟨.of_plain rfl, (skipWord_suffix hWord).trans (suffix_of_skipSpace hSpace)⟩
  · obtain ⟨hGiven, hSuffix⟩ := readStringCell_given hRead
    exact ⟨hGiven.mono (skipSpace_suffix cs), hSuffix.trans (skipSpace_suffix cs)⟩

-- ---------------------------------------------------------------------------
-- Objects
-- ---------------------------------------------------------------------------

theorem readMembers_given {turns : Nat} (hDoc : cs <:+ doc)
    (hMembers : ∀ m ∈ members, Given doc m.2)
    (hRead : readMembers fields turns members cs = .ok (members', rest)) :
    ∀ m ∈ members', Given doc m.2 := by
  induction turns generalizing members cs with
  | zero => cases hRead
  | succ turns ih =>
    rw [readMembers] at hRead
    obtain ⟨⟨name, afterName⟩, hName, hRead⟩ := bind_eq_ok_iff.mp hRead
    have hAfterName : afterName <:+ doc := (readName_suffix hName).trans hDoc
    obtain ⟨⟨more, behind⟩, hMember, hRead⟩ := bind_eq_ok_iff.mp hRead
    -- one member, whether its name counts or not
    have hMore : (∀ m ∈ more, Given doc m.2) ∧ behind <:+ doc := by
      simp only at hMember
      split at hMember
      · next field _ =>
        split at hMember
        · cases hMember
        · obtain ⟨afterColon, hColon, hMember⟩ := bind_eq_ok_iff.mp hMember
          obtain ⟨⟨cell, afterCell⟩, hCell, hMember⟩ := bind_eq_ok_iff.mp hMember
          cases hMember
          have hAfterColon := (expect_suffix hColon).trans hAfterName
          obtain ⟨hGiven, hAfterCell⟩ := readCell_given hCell
          exact ⟨List.forall_mem_append.mpr
            ⟨hMembers, List.forall_mem_singleton.mpr (hGiven.mono hAfterColon)⟩,
            hAfterCell.trans hAfterColon⟩
      · obtain ⟨afterColon, hColon, hMember⟩ := bind_eq_ok_iff.mp hMember
        obtain ⟨afterValue, hValue, hMember⟩ := bind_eq_ok_iff.mp hMember
        cases hMember
        exact ⟨hMembers, (skipValue_suffix hValue).trans ((expect_suffix hColon).trans hAfterName)⟩
    obtain ⟨hMore, hBehind⟩ := hMore
    simp only at hRead
    split at hRead
    · cases hRead
    · cases hRead
      exact hMore
    · next after hComma =>
      exact ih ((suffix_of_skipSpace hComma).trans hBehind) hMore hRead
    · cases hRead

/-- A form has no zero with a sign for a missing field. -/
def PlainFields (fields : List Field) : Prop :=
  ∀ f ∈ fields, (∀ c ∈ f.ifMissing, c.plain = c) ∧ ∀ c ∈ f.ifShort, c.plain = c

instance (fields : List Field) : Decidable (PlainFields fields) :=
  inferInstanceAs (Decidable (∀ f ∈ fields, _))

theorem orderMembers_given (hFields : PlainFields fields) (hMembers : ∀ m ∈ members, Given doc m.2)
    (hOrder : orderMembers fields members = some cells) : ∀ c ∈ cells, Given doc c := by
  induction fields generalizing cells with
  | nil =>
    cases hOrder
    rintro _ ⟨⟩
  | cons f fields ih =>
    obtain ⟨hFirst, hRest⟩ := List.forall_mem_cons.mp hFields
    unfold orderMembers at hOrder
    rw [List.mapM_cons] at hOrder
    obtain ⟨cell, hCell, hOrder⟩ := Option.bind_eq_some_iff.mp hOrder
    obtain ⟨others, hOthers, hOrder⟩ := Option.bind_eq_some_iff.mp hOrder
    cases hOrder
    refine List.forall_mem_cons.mpr ⟨?_, ih hRest hOthers⟩
    rcases Option.or_eq_some_iff.mp hCell with hFound | ⟨-, hMissing⟩
    · obtain ⟨before, after, rfl, -⟩ := List.lookup_eq_some_iff.mp hFound
      exact hMembers (f.name, cell) (List.mem_append_right before List.mem_cons_self)
    · exact .of_plain (hFirst.1 cell hMissing)

theorem readObject_given (hFields : PlainFields fields)
    (hRead : readObject fields cs = .ok (cells, rest)) : ∀ c ∈ cells, Given cs c := by
  obtain ⟨⟨members, behind⟩, hMembers, hRead⟩ := bind_eq_ok_iff.mp hRead
  have hGiven : ∀ m ∈ members, Given cs m.2 := by
    split at hMembers
    · cases hMembers
      rintro _ ⟨⟩
    · exact readMembers_given (List.suffix_refl cs) (by rintro _ ⟨⟩) hMembers
  simp only at hRead
  split at hRead
  · next hOrder =>
    cases hRead
    exact orderMembers_given hFields hGiven hOrder
  · cases hRead

-- ---------------------------------------------------------------------------
-- Arrays
-- ---------------------------------------------------------------------------

theorem readLead_suffix {isFirst : Bool} (hLead : readLead isFirst cs = .ok (some rest)) :
    rest <:+ cs := by
  unfold readLead at hLead
  split at hLead
  · cases hLead
  · cases hLead
  · next c after _ hSpace =>
    split at hLead
    · cases hLead
      exact hSpace ▸ skipSpace_suffix cs
    split at hLead
    · have hAfter := suffix_of_skipSpace hSpace
      split at hLead
      · cases hLead
      · cases hLead
      · cases hLead
        exact (skipSpace_suffix after).trans hAfter
    · cases hLead

theorem readElements_given {isFirst : Bool} (hDoc : cs <:+ doc) (hFields : PlainFields fields)
    (hRead : readElements isFirst fields cs = .ok (cells, rest)) : ∀ c ∈ cells, Given doc c := by
  induction fields generalizing isFirst cs cells with
  | nil =>
    rw [readElements] at hRead
    split at hRead
    · cases hRead
    · cases hRead
      rintro _ ⟨⟩
    · cases hRead
  | cons f fields ih =>
    obtain ⟨hFirst, hRest⟩ := List.forall_mem_cons.mp hFields
    rw [readElements] at hRead
    obtain ⟨lead, hLead, hRead⟩ := bind_eq_ok_iff.mp hRead
    cases lead with
    | some behind =>
      obtain ⟨⟨cell, afterCell⟩, hCell, hRead⟩ := bind_eq_ok_iff.mp hRead
      obtain ⟨⟨others, afterAll⟩, hOthers, hRead⟩ := bind_eq_ok_iff.mp hRead
      cases hRead
      have hBehind := (readLead_suffix hLead).trans hDoc
      obtain ⟨hGiven, hAfterCell⟩ := readCell_given hCell
      exact List.forall_mem_cons.mpr
        ⟨hGiven.mono hBehind, ih (hAfterCell.trans hBehind) hRest hOthers⟩
    | none =>
      simp only at hRead
      split at hRead
      · cases hRead
      · next cell hShort =>
        obtain ⟨⟨others, afterAll⟩, hOthers, hRead⟩ := bind_eq_ok_iff.mp hRead
        cases hRead
        exact List.forall_mem_cons.mpr ⟨.of_plain (hFirst.2 cell hShort), ih hDoc hRest hOthers⟩

-- ---------------------------------------------------------------------------
-- Documents
-- ---------------------------------------------------------------------------

theorem readCells_given (hFields : PlainFields fields)
    (hRead : readCells fields cs = .ok (cells, rest)) : ∀ c ∈ cells, Given cs c := by
  unfold readCells at hRead
  split at hRead
  · next hSpace =>
    exact fun c hMem => (readObject_given hFields hRead c hMem).mono (suffix_of_skipSpace hSpace)
  · next hSpace => exact readElements_given (suffix_of_skipSpace hSpace) hFields hRead
  · cases hRead

/-- A structure that is read is made of values that the document gives. -/
theorem Form.read_given {α : Type} {form : Form α} {text : String} {a : α}
    (hFields : PlainFields form.fields) (hRead : form.read text = .ok a) :
    ∃ cells, form.ofCells? cells = some a ∧ ∀ c ∈ cells, Given text.toList c := by
  obtain ⟨⟨cells, behind⟩, hCells, hRead⟩ := bind_eq_ok_iff.mp hRead
  simp only at hRead
  split at hRead
  · next b hOf =>
    unfold readEnd at hRead
    split at hRead
    · cases hRead
      exact ⟨cells, hOf, readCells_given hFields hCells⟩
    · cases hRead
  · cases hRead

end Json

end Purse
