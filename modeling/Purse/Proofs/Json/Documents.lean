import Mathlib.Data.List.Forall2
import Purse.Json.Form
import Purse.Proofs.Decimal.Scientific
import Purse.Proofs.Id.User
import Purse.Proofs.Json.Suffix
import Purse.Proofs.Json.Text
import Purse.Proofs.Time.Rfc3339

/-!
# Documents, read back

What is written as a document is read back from it: each value by the reader of its kind, members by
their names, and the structure from its values. All comes back as it was, but for the sign of a zero.

## Definitions

* `Json.Cell.plain`: a value, without a sign if it is a zero.
* `Json.Kind.Holds`: what may stand in a field of a kind.
* `Json.Form.Faithful`: a form whose values can be told from their cells.

## Results

* `Json.readCell_chars`: one value.
* `Json.readMembers_intercalate`: the members of an object.
* `Json.Form.Faithful.read_write`: a structure.
-/

namespace Purse

namespace Json

variable {k : Kind} {cell : Cell} {cs rest : List Char}

-- ---------------------------------------------------------------------------
-- Values
-- ---------------------------------------------------------------------------

/-- The value, without a sign if it is a zero. -/
def Cell.plain : Cell → Cell
  | decimal d => decimal d.plain
  | cell => cell

/-- What may stand in a field of a kind. -/
inductive Kind.Holds : Kind → Cell → Prop where
  | text (s : String) : Holds .text (.text s)
  | decimal (d : Decimal) : Holds .decimal (.decimal d)
  | walletId (id : WalletId) : Holds .walletId (.walletId id)
  | userId (id : UserId) : Holds .userId (.userId id)
  | time (t : Timestamp) : Holds .time (.time t)
  | someTime (t : Timestamp) : Holds .optionalTime (.time t)
  | noTime : Holds .optionalTime .absent
  | someUserId (id : UserId) : Holds .optionalUserId (.userId id)
  | noUserId : Holds .optionalUserId .absent

theorem skipSpace_quoted (cs rest : List Char) :
    skipSpace (quoted cs ++ rest) = quoted cs ++ rest := rfl

theorem readText_quoted (cs rest : List Char) :
    readText none (cs.flatMap escaped ++ ['"'] ++ rest) = .ok (cs, rest) := by
  rw [List.append_assoc]
  exact readText_flatMap cs rest

/-- What stands in quotes is read as a string of its kind. -/
theorem readCell_quoted (hCell : k.ofString? (String.ofList cs) = some cell) (rest : List Char) :
    readCell k (quoted cs ++ rest) = .ok (cell, rest) := by
  have hString : readStringCell k (quoted cs ++ rest) = .ok (cell, rest) := by
    unfold readStringCell
    rw [skipSpace_quoted]
    unfold quoted
    rw [List.cons_append]
    simp only [readText_quoted, bind, Except.bind, hCell]
  unfold readCell
  rw [skipSpace_quoted]
  cases k.isOptional <;> exact hString

/-- A value is read back, whatever follows it. -/
theorem readCell_chars (hHolds : k.Holds cell) (rest : List Char) :
    readCell k (cell.chars ++ rest) = .ok (cell.plain, rest) := by
  have hId : ∀ id : UserId, UserId.parse? (String.ofList id.chars) = some id := UserId.parse?_text
  have hTime : ∀ t, Rfc3339.parse? (String.ofList (Rfc3339.chars t)) = some t := Rfc3339.parse_text
  cases hHolds with
  | text s =>
    have hText : Kind.text.ofString? (String.ofList s.toList) = some (.text s) :=
      congrArg (some ∘ Cell.text) String.ofList_toList
    exact readCell_quoted hText rest
  | decimal d => exact readCell_quoted (congrArg (·.map Cell.decimal) d.parseScientific?_text) rest
  | walletId id =>
    exact readCell_quoted (congrArg (·.toOption.map Cell.walletId) id.parse_text) rest
  | userId id | someUserId id => exact readCell_quoted (congrArg (·.map Cell.userId) (hId id)) rest
  | time t | someTime t => exact readCell_quoted (congrArg (·.map Cell.time) (hTime t)) rest
  | noTime | noUserId => rfl

/-- A value that stands alone is read back. -/
theorem readLone_writeCell (hHolds : k.Holds cell) : readLone k (writeCell cell) = .ok cell.plain := by
  have hRead := readCell_chars hHolds []
  rw [List.append_nil] at hRead
  unfold readLone writeCell
  rw [String.toList_ofList, hRead]
  rfl

-- ---------------------------------------------------------------------------
-- Members
-- ---------------------------------------------------------------------------

/-- A member, as it is written. -/
def memberChars (m : Field × Cell) : List Char := quoted m.1.name.toList ++ ':' :: m.2.chars

/-- A member, as it is read. -/
def member (m : Field × Cell) : String × Cell := (m.1.name, m.2.plain)

theorem readName_quoted (name : String) (rest : List Char) :
    readName (quoted name.toList ++ rest) = .ok (name, rest) := by
  have hExpect : expect '"' (quoted name.toList ++ rest) =
      .ok (name.toList.flatMap escaped ++ ['"'] ++ rest) := rfl
  unfold readName
  simp only [hExpect, readText_quoted, bind, Except.bind, String.ofList_toList]
  rfl

theorem expect_self {c : Char} (hSpace : isSpace c = false) (rest : List Char) :
    expect c (c :: rest) = .ok rest := by
  have hSame : skipSpace (c :: rest) = c :: rest :=
    List.dropWhile_cons_of_neg (ne_true_of_eq_false hSpace)
  unfold expect
  rw [hSame]
  exact if_pos rfl

variable {fields : List Field} {ms : List (Field × Cell)} {read : List (String × Cell)}

/-- The value of a member whose name counts and is new. -/
theorem readMembers_member {m : Field × Cell} (hField : fields.find? (·.name == m.1.name) = some m.1)
    (hNew : read.lookup m.1.name = none) (hHolds : m.1.kind.Holds m.2) (turns : Nat)
    (rest : List Char) :
    readMembers fields (turns + 1) read (memberChars m ++ rest) =
      match skipSpace rest with
      | [] => .error .truncated
      | '\x7d' :: rest => .ok (read ++ [member m], rest)
      | ',' :: rest => readMembers fields turns (read ++ [member m]) rest
      | _ => .error .malformed := by
  unfold memberChars
  rw [List.append_assoc, List.cons_append, readMembers, readName_quoted]
  simp only [bind, Except.bind, hField, hNew, Option.isSome_none, Bool.false_eq_true, if_false,
    expect_self (c := ':') (by decide), readCell_chars hHolds, pure, Except.pure]
  rfl

/-- Members whose names count and are new, one after the other. -/
theorem readMembers_intercalate (hSome : ms ≠ [])
    (hFields : ∀ m ∈ ms, fields.find? (·.name == m.1.name) = some m.1)
    (hNew : ∀ m ∈ ms, read.lookup m.1.name = none) (hNodup : (ms.map (·.1.name)).Nodup)
    (hHolds : ∀ m ∈ ms, m.1.kind.Holds m.2) {turns : Nat} (hTurns : ms.length ≤ turns)
    (rest : List Char) :
    readMembers fields turns read (List.intercalate [','] (ms.map memberChars) ++ '\x7d' :: rest) =
      .ok (read ++ ms.map member, rest) := by
  induction ms generalizing read turns with
  | nil => exact absurd rfl hSome
  | cons m ms ih =>
    obtain ⟨hField, hFields⟩ := List.forall_mem_cons.mp hFields
    obtain ⟨hNewName, hNew⟩ := List.forall_mem_cons.mp hNew
    obtain ⟨hHold, hHolds⟩ := List.forall_mem_cons.mp hHolds
    rw [List.map_cons, List.nodup_cons] at hNodup
    obtain ⟨turns, rfl⟩ := Nat.exists_eq_succ_of_ne_zero
      (Nat.pos_iff_ne_zero.mp (Nat.lt_of_lt_of_le (Nat.succ_pos ms.length) hTurns))
    cases ms with
    | nil =>
      rw [List.map_singleton, List.intercalate_singleton, readMembers_member hField hNewName hHold]
      rfl
    | cons next ms =>
      have hNewNext : ∀ x ∈ next :: ms, (read ++ [member m]).lookup x.1.name = none := by
        intro x hMem
        have hOther : (x.1.name == m.1.name) = false := by
          rw [beq_eq_false_iff_ne]
          intro hSame
          exact hNodup.1 (hSame ▸ List.mem_map.mpr ⟨x, hMem, rfl⟩)
        rw [List.lookup_append, hNew x hMem, Option.none_or, member, List.lookup_cons, hOther]
        rfl
      rw [List.map_cons, List.map_cons, List.intercalate_cons_cons, List.append_assoc,
        List.append_assoc, List.singleton_append, readMembers_member hField hNewName hHold]
      show readMembers fields turns (read ++ [member m]) _ = _
      rw [← List.map_cons, ih (List.cons_ne_nil _ _) hFields hNewNext hNodup.2 hHolds
        (Nat.le_of_succ_le_succ hTurns), List.append_assoc]
      rfl

theorem find?_of_mem (hNodup : (fields.map Field.name).Nodup) {f : Field} (hMem : f ∈ fields) :
    fields.find? (·.name == f.name) = some f := by
  obtain ⟨before, after, rfl⟩ := List.append_of_mem hMem
  rw [List.map_append, List.map_cons, List.nodup_append] at hNodup
  rw [List.find?_eq_some_iff_append]
  refine ⟨beq_self_eq_true _, before, after, rfl, fun g hBefore => ?_⟩
  have hOther : g.name ≠ f.name :=
    hNodup.2.2 g.name (List.mem_map_of_mem hBefore) f.name List.mem_cons_self
  rw [beq_eq_false_iff_ne.mpr hOther]
  rfl

theorem lookup_member (hNodup : (ms.map (·.1.name)).Nodup) {m : Field × Cell} (hMem : m ∈ ms) :
    (ms.map member).lookup m.1.name = some m.2.plain := by
  obtain ⟨before, after, rfl⟩ := List.append_of_mem hMem
  rw [List.map_append, List.map_cons, List.nodup_append] at hNodup
  rw [List.lookup_eq_some_iff]
  refine ⟨before.map member, after.map member, by rw [List.map_append, List.map_cons]; rfl, ?_⟩
  intro p hBefore
  obtain ⟨x, hMember, rfl⟩ := List.mem_map.mp hBefore
  have hOther : x.1.name ≠ m.1.name :=
    hNodup.2.2 x.1.name (List.mem_map.mpr ⟨x, hMember, rfl⟩) m.1.name List.mem_cons_self
  exact bne_iff_ne.mpr hOther.symm

/-- Members are put in the order of their fields. -/
theorem orderMembers_member (hNodup : (ms.map (·.1.name)).Nodup) :
    orderMembers (ms.map Prod.fst) (ms.map member) = some (ms.map (·.2.plain)) := by
  have hEach : ∀ some : List (Field × Cell), (∀ m ∈ some, m ∈ ms) →
      orderMembers (some.map Prod.fst) (ms.map member) = .some (some.map (·.2.plain)) := by
    intro some hSome
    induction some with
    | nil => rfl
    | cons m some ih =>
      obtain ⟨hFirst, hRest⟩ := List.forall_mem_cons.mp hSome
      have hOthers := ih hRest
      unfold orderMembers at hOthers ⊢
      rw [List.map_cons, List.mapM_cons, lookup_member hNodup hFirst, hOthers]
      rfl
  exact hEach ms fun _ hMem => hMem

theorem length_le_intercalate (ms : List (Field × Cell)) :
    ms.length ≤ (List.intercalate [','] (ms.map memberChars)).length := by
  induction ms with
  | nil => exact Nat.zero_le _
  | cons m ms ih =>
    have hSome : 0 < (memberChars m).length := Nat.succ_pos _
    cases ms with
    | nil =>
      rw [List.map_singleton, List.intercalate_singleton]
      exact hSome
    | cons next ms =>
      rw [List.map_cons, List.map_cons, List.intercalate_cons_cons, ← List.map_cons, List.length_append,
        List.length_append, List.length_cons]
      omega

-- ---------------------------------------------------------------------------
-- Documents
-- ---------------------------------------------------------------------------

/-- An object is read back, value by value. -/
theorem readCells_object (hSome : ms ≠ []) (hNodup : (ms.map (·.1.name)).Nodup)
    (hHolds : ∀ m ∈ ms, m.1.kind.Holds m.2) :
    readCells (ms.map Prod.fst) (objectChars (ms.map fun m => (m.1.name, m.2))) =
      .ok (ms.map (·.2.plain), []) := by
  have hObject : objectChars (ms.map fun m => (m.1.name, m.2)) =
      '\x7b' :: (List.intercalate [','] (ms.map memberChars) ++ ['\x7d']) := by
    unfold objectChars
    simp only [List.map_map]
    rfl
  have hNames : ((ms.map Prod.fst).map Field.name).Nodup := by
    rwa [List.map_map]
  have hFields : ∀ m ∈ ms, (ms.map Prod.fst).find? (·.name == m.1.name) = some m.1 := fun m hMem =>
    find?_of_mem hNames (List.mem_map_of_mem hMem)
  have hTurns : ms.length ≤ (List.intercalate [','] (ms.map memberChars) ++ ['\x7d']).length + 1 := by
    have hLength := length_le_intercalate ms
    rw [List.length_append]
    omega
  have hNone : ∀ m ∈ ms, ([] : List (String × Cell)).lookup m.1.name = none := fun _ _ => rfl
  have hMembers := readMembers_intercalate hSome hFields hNone hNodup hHolds hTurns []
  obtain ⟨cs, hQuote⟩ : ∃ cs, List.intercalate [','] (ms.map memberChars) ++ ['\x7d'] = '"' :: cs := by
    obtain ⟨m, ms, rfl⟩ := List.exists_cons_of_ne_nil hSome
    cases ms with
    | nil =>
      rw [List.map_singleton, List.intercalate_singleton]
      exact ⟨_, rfl⟩
    | cons next ms =>
      rw [List.map_cons, List.map_cons, List.intercalate_cons_cons]
      exact ⟨_, rfl⟩
  rw [hObject]
  show readObject (ms.map Prod.fst) (List.intercalate [','] (ms.map memberChars) ++ ['\x7d']) = _
  unfold readObject
  rw [hQuote] at hMembers ⊢
  refine bind_eq_ok_iff.mpr ⟨(ms.map member, []), ?_, ?_⟩
  · have hSpace : skipSpace ('"' :: cs) = '"' :: cs := rfl
    rw [hSpace]
    exact hMembers
  · simp only [orderMembers_member hNodup]

namespace Form

variable {α : Type} {form : Form α} {plain : α → α}

/-- A form that has fields of different names and kinds for its values, and whose structures can be told
from their values; where these lose the sign of a zero, the structure does so too. -/
structure Faithful (form : Form α) (plain : α → α) : Prop where
  fields_ne_nil : form.fields ≠ []
  nodup : (form.fields.map Field.name).Nodup
  holds : ∀ a, List.Forall₂ (fun f c => f.kind.Holds c) form.fields (form.cells a)
  back : ∀ a, form.ofCells? ((form.cells a).map Cell.plain) = some (plain a)

/-- A structure is read back from its document. -/
theorem Faithful.read_write (hForm : form.Faithful plain) (a : α) :
    form.read (form.write a) = .ok (plain a) := by
  have hHolds := hForm.holds a
  have hLength := hHolds.length_eq
  have hFirst : (form.fields.zip (form.cells a)).map Prod.fst = form.fields :=
    List.map_fst_zip hLength.le
  have hSecond : (form.fields.zip (form.cells a)).map Prod.snd = form.cells a :=
    List.map_snd_zip hLength.ge
  have hNames : (form.fields.map Field.name).zip (form.cells a) =
      (form.fields.zip (form.cells a)).map fun m => (m.1.name, m.2) := by
    rw [List.zip_map_left]
    rfl
  have hSome : form.fields.zip (form.cells a) ≠ [] := by
    intro hNone
    rw [hNone] at hFirst
    exact hForm.fields_ne_nil hFirst.symm
  have hNodup : ((form.fields.zip (form.cells a)).map (·.1.name)).Nodup := by
    have hNodup := hForm.nodup
    rw [← hFirst, List.map_map] at hNodup
    exact hNodup
  have hCells := readCells_object hSome hNodup fun m hMem =>
    (List.forall₂_iff_zip.mp hHolds).2 hMem
  rw [hFirst, ← hNames] at hCells
  have hPlain : (form.fields.zip (form.cells a)).map (·.2.plain) = (form.cells a).map Cell.plain :=
    List.map_map.symm.trans (congrArg (List.map Cell.plain) hSecond)
  unfold read write
  rw [String.toList_ofList, hCells, hPlain]
  simp only [bind, Except.bind, hForm.back a]
  rfl

end Form

end Json

end Purse
