import Purse.Json.Forms
import Purse.Proofs.Json.Origins

/-!
# Documents, written and read again

What is written of a wallet or a request is read as the same wallet or request, whatever is in it; ids
that stand alone are too. Only a zero loses its sign. So a document that is read settles: what is written
of it is read and written as it is from then on. At first it may be a zero with a sign that is written;
but only for a document with a string that vanishes.

## Definitions

* `Json.Form.Carries`: a form of structures that carry one decimal.
* `Json.Form.Settles`: documents of a form settle.

## Results

* `Json.Form.Carries.settles`: one form.
* `Json.rewrittenLone_settles`: ids that stand alone.
* `Json.documents_round_trip`: all forms.
-/

namespace Purse

namespace Json

open Decimal (signedZero Vanishes)

-- ---------------------------------------------------------------------------
-- Settling
-- ---------------------------------------------------------------------------

namespace Form

variable {α : Type} {form : Form α} {amount : α → Decimal} {withAmount : α → Decimal → α}

/-- A form of structures that carry one decimal, their amount, which a document gives or which is missing.
Structures are read back but for the sign of this decimal. -/
structure Carries (form : Form α) (amount : α → Decimal) (withAmount : α → Decimal → α) : Prop
    extends form.Faithful fun a => withAmount a (amount a).plain where
  plainFields : PlainFields form.fields
  amount_mem : ∀ cells a, form.ofCells? cells = some a → .decimal (amount a) ∈ cells
  withAmount_amount : ∀ a, withAmount a (amount a) = a
  amount_withAmount : ∀ a d, amount (withAmount a d) = d
  withAmount_withAmount : ∀ a d e, withAmount (withAmount a d) e = withAmount a e

/-- What is written of a document that is read is read again, and what is written then stays as it is. The
two are the same, unless the amount is a zero with a sign, given by a string that vanishes. -/
def Settles (form : Form α) (amount : α → Decimal) : Prop :=
  ∀ text written, rewritten form text = .ok written →
    ∃ again, rewritten form written = .ok again ∧ rewritten form again = .ok again ∧
      (again ≠ written → ∃ a s, form.read text = .ok a ∧ amount a = signedZero ∧
        HasString text.toList s ∧ Vanishes (String.ofList s))

theorem rewritten_of_read {text : String} {a : α} (hRead : form.read text = .ok a) :
    rewritten form text = .ok (form.write a) := by
  unfold rewritten
  rw [hRead]
  rfl

theorem read_of_rewritten {text written : String} (hWritten : rewritten form text = .ok written) :
    ∃ a, form.read text = .ok a ∧ form.write a = written := by
  cases hRead : form.read text with
  | error flaw =>
    unfold rewritten at hWritten
    rw [hRead] at hWritten
    cases hWritten
  | ok a => exact ⟨a, rfl, Except.ok.inj ((rewritten_of_read hRead).symm.trans hWritten)⟩

/-- Documents settle, as a decimal that has been read back has no more sign to lose. -/
theorem Carries.settles (hForm : form.Carries amount withAmount) : form.Settles amount := by
  intro text written hWritten
  obtain ⟨a, hRead, rfl⟩ := read_of_rewritten hWritten
  have hStays := rewritten_of_read (hForm.read_write (withAmount a (amount a).plain))
  simp only [hForm.amount_withAmount, hForm.withAmount_withAmount, Decimal.plain_plain] at hStays
  refine ⟨_, rewritten_of_read (hForm.read_write a), hStays, fun hOther => ?_⟩
  have hSigned : (amount a).plain ≠ amount a := by
    intro hSame
    rw [hSame, hForm.withAmount_amount] at hOther
    exact hOther rfl
  obtain ⟨cells, hOf, hGiven⟩ := form.read_given hForm.plainFields hRead
  have hCell : Cell.plain (.decimal (amount a)) ≠ .decimal (amount a) := fun hSame =>
    hSigned (Cell.decimal.inj hSame)
  obtain ⟨hZero, s, hString, hVanishes⟩ := hGiven _ (hForm.amount_mem cells a hOf) hCell
  exact ⟨a, s, hRead, Cell.decimal.inj hZero, hString, hVanishes⟩

end Form

-- ---------------------------------------------------------------------------
-- The forms
-- ---------------------------------------------------------------------------

theorem holds_ofTime? (t? : Option Timestamp) : Kind.optionalTime.Holds (.ofTime? t?) := by
  cases t? with
  | none => exact .noTime
  | some t => exact .someTime t

theorem holds_ofUserId? (id? : Option UserId) : Kind.optionalUserId.Holds (.ofUserId? id?) := by
  cases id? with
  | none => exact .noUserId
  | some id => exact .someUserId id

theorem carries_walletForm :
    walletForm.Carries Wallet.balance fun w d => { w with balance := d } where
  fields_ne_nil := List.cons_ne_nil _ _
  nodup := by decide
  holds w := .cons (.walletId _) <| .cons (.userId _) <| .cons (.decimal _) <| .cons (.time _) <|
    .cons (.time _) <| .cons (holds_ofTime? _) <| .cons (.userId _) <| .cons (.userId _) <|
    .cons (holds_ofUserId? _) .nil
  back w := by
    obtain ⟨_, _, _, _, _, deletedAt, _, _, deletedBy⟩ := w
    cases deletedAt <;> cases deletedBy <;> rfl
  plainFields := by decide
  amount_mem cells w hOf := by
    simp only [walletForm] at hOf
    split at hOf
    · cases hOf
      simp
    · cases hOf
  withAmount_amount _ := rfl
  amount_withAmount _ _ := rfl
  withAmount_withAmount _ _ _ := rfl

theorem carries_newWalletForm :
    newWalletForm.Carries NewWallet.balance fun r d => { r with balance := d } where
  fields_ne_nil := List.cons_ne_nil _ _
  nodup := by decide
  holds r := .cons (.text _) <| .cons (.decimal _) .nil
  back _ := rfl
  plainFields := by decide
  amount_mem cells r hOf := by
    simp only [newWalletForm] at hOf
    split at hOf
    · cases hOf
      simp
    · cases hOf
  withAmount_amount _ := rfl
  amount_withAmount _ _ := rfl
  withAmount_withAmount _ _ _ := rfl

theorem carries_topupForm : topupForm.Carries Topup.amount fun r d => { r with amount := d } where
  fields_ne_nil := List.cons_ne_nil _ _
  nodup := by decide
  holds r := .cons (.text _) <| .cons (.text _) <| .cons (.decimal _) <| .cons (.text _) .nil
  back _ := rfl
  plainFields := by decide
  amount_mem cells r hOf := by
    simp only [topupForm] at hOf
    split at hOf
    · cases hOf
      simp
    · cases hOf
  withAmount_amount _ := rfl
  amount_withAmount _ _ := rfl
  withAmount_withAmount _ _ _ := rfl

theorem carries_transferForm :
    transferForm.Carries Transfer.amount fun r d => { r with amount := d } where
  fields_ne_nil := List.cons_ne_nil _ _
  nodup := by decide
  holds r := .cons (.text _) <| .cons (.text _) <| .cons (.text _) <| .cons (.text _) <|
    .cons (.decimal _) .nil
  back _ := rfl
  plainFields := by decide
  amount_mem cells r hOf := by
    simp only [transferForm] at hOf
    split at hOf
    · cases hOf
      simp
    · cases hOf
  withAmount_amount _ := rfl
  amount_withAmount _ _ := rfl
  withAmount_withAmount _ _ _ := rfl

-- ---------------------------------------------------------------------------
-- Values that stand alone
-- ---------------------------------------------------------------------------

theorem holds_of_ofString? {k : Kind} {s : String} {cell : Cell} (hCell : k.ofString? s = some cell) :
    k.Holds cell := by
  cases k with
  | text =>
    cases hCell
    exact .text s
  | decimal =>
    obtain ⟨d, -, rfl⟩ := Option.map_eq_some_iff.mp hCell
    exact .decimal d
  | walletId =>
    obtain ⟨id, -, rfl⟩ := Option.map_eq_some_iff.mp hCell
    exact .walletId id
  | userId =>
    obtain ⟨id, -, rfl⟩ := Option.map_eq_some_iff.mp hCell
    exact .userId id
  | time =>
    obtain ⟨t, -, rfl⟩ := Option.map_eq_some_iff.mp hCell
    exact .time t
  | optionalTime =>
    obtain ⟨t, -, rfl⟩ := Option.map_eq_some_iff.mp hCell
    exact .someTime t
  | optionalUserId =>
    obtain ⟨id, -, rfl⟩ := Option.map_eq_some_iff.mp hCell
    exact .someUserId id

/-- What is read in a field may stand there. -/
theorem readCell_holds {k : Kind} {cs rest : List Char} {cell : Cell}
    (hRead : readCell k cs = .ok (cell, rest)) : k.Holds cell := by
  unfold readCell at hRead
  split at hRead
  · next hOptional _ =>
    obtain ⟨behind, -, hRead⟩ := bind_eq_ok_iff.mp hRead
    cases hRead
    cases k with
    | optionalTime => exact .noTime
    | optionalUserId => exact .noUserId
    | text | decimal | walletId | userId | time => cases hOptional
  · unfold readStringCell at hRead
    split at hRead
    · obtain ⟨⟨s, behind⟩, -, hRead⟩ := bind_eq_ok_iff.mp hRead
      simp only at hRead
      split at hRead
      · next hCell =>
        cases hRead
        exact holds_of_ofString? hCell
      · cases hRead
    · cases hRead

/-- A value that stands alone is written as it is from then on, unless it is a decimal. -/
theorem rewrittenLone_settles {k : Kind} (hKind : k ≠ .decimal) {text written : String}
    (hWritten : rewrittenLone k text = .ok written) : rewrittenLone k written = .ok written := by
  obtain ⟨cell, hRead, rfl⟩ : ∃ cell, readLone k text = .ok cell ∧ writeCell cell = written := by
    unfold rewrittenLone at hWritten
    cases hRead : readLone k text with
    | error flaw =>
      rw [hRead] at hWritten
      cases hWritten
    | ok cell =>
      rw [hRead] at hWritten
      exact ⟨cell, rfl, Except.ok.inj hWritten⟩
  obtain ⟨⟨cell', behind⟩, hCell, hEnd⟩ := bind_eq_ok_iff.mp hRead
  have hHolds := readCell_holds hCell
  obtain rfl : cell' = cell := by
    simp only [readEnd] at hEnd
    split at hEnd
    · exact Except.ok.inj hEnd
    · cases hEnd
  have hPlain : cell'.plain = cell' := by
    cases hHolds with
    | decimal => exact absurd rfl hKind
    | text | walletId | userId | time | someTime | noTime | someUserId | noUserId => rfl
  unfold rewrittenLone
  rw [readLone_writeCell hHolds, hPlain]
  rfl

/-- Whatever a wallet, a request or an id holds, it is read back from its document; but a zero has no sign
then, which makes no difference to its value. Whatever document is read, what is written of it is read
again. What is written from then on stays as it is; and it is what was written at first, unless that has
a zero with a sign, and the document a string, in the exponent form, of a number below zero of which no
digit is left. -/
theorem documents_round_trip :
    ((∀ w, walletForm.read (walletForm.write w) = .ok { w with balance := w.balance.plain }) ∧
      (∀ r, newWalletForm.read (newWalletForm.write r) = .ok { r with balance := r.balance.plain }) ∧
      (∀ r, topupForm.read (topupForm.write r) = .ok { r with amount := r.amount.plain }) ∧
      (∀ r, transferForm.read (transferForm.write r) = .ok { r with amount := r.amount.plain }) ∧
      (∀ id, readLone .walletId (writeCell (.walletId id)) = .ok (.walletId id)) ∧
      ∀ id, readLone .userId (writeCell (.userId id)) = .ok (.userId id)) ∧
    (∀ d : Decimal, d.plain.units = d.units ∧ d.plain.scale = d.scale ∧
      (d.plain ≠ d ↔ d.negative = true ∧ d.mantissa = 0)) ∧
    (walletForm.Settles Wallet.balance ∧ newWalletForm.Settles NewWallet.balance ∧
      topupForm.Settles Topup.amount ∧ transferForm.Settles Transfer.amount) ∧
    ∀ k ∈ [Kind.walletId, Kind.userId], ∀ text written,
      rewrittenLone k text = .ok written → rewrittenLone k written = .ok written :=
  ⟨⟨carries_walletForm.read_write, carries_newWalletForm.read_write, carries_topupForm.read_write,
      carries_transferForm.read_write, fun id => readLone_writeCell (.walletId id),
      fun id => readLone_writeCell (.userId id)⟩,
    fun d => ⟨d.units_plain, rfl, Decimal.plain_ne_self_iff⟩,
    ⟨carries_walletForm.settles, carries_newWalletForm.settles, carries_topupForm.settles,
      carries_transferForm.settles⟩,
    fun k hMem _ _ => rewrittenLone_settles (by
      rintro rfl
      exact absurd hMem (by decide))⟩

/-! ## A zero with a sign -/

/-- A document with a number below zero, too small for any place. -/
def tooSmall : String := "\x7b\"user_id\":\"\",\"balance\":\"-0.1e-28\"\x7d"

/-- What is written of it is a zero with a sign. -/
def signed : String :=
  "\x7b\"user_id\":\"\",\"balance\":\"-0.0000000000000000000000000000\"\x7d"

/-- What is written of that is a zero without one. -/
def unsigned : String :=
  "\x7b\"user_id\":\"\",\"balance\":\"0.0000000000000000000000000000\"\x7d"

theorem ok_of_toOption {α : Type} {x : Except Flaw α} {a : α} (hSome : x.toOption = some a) :
    x = .ok a := by
  cases x with
  | error flaw => cases hSome
  | ok b => exact congrArg Except.ok (Option.some.inj hSome)

/-- What is written of a document, and read and written again, is not always the same. -/
theorem tooSmall_changes_twice :
    rewritten newWalletForm tooSmall = .ok signed ∧ rewritten newWalletForm signed = .ok unsigned ∧
      signed ≠ unsigned :=
  ⟨ok_of_toOption (by decide +kernel), ok_of_toOption (by decide +kernel), by decide +kernel⟩

/-- What is written of it the second time stays. -/
theorem tooSmall_settles :
    rewritten newWalletForm unsigned = .ok unsigned ∧
      ∃ r s, newWalletForm.read tooSmall = .ok r ∧ r.balance = signedZero ∧
        HasString tooSmall.toList s ∧ Vanishes (String.ofList s) := by
  have hFirst : rewritten newWalletForm tooSmall = .ok signed := ok_of_toOption (by decide +kernel)
  have hSecond : rewritten newWalletForm signed = .ok unsigned := ok_of_toOption (by decide +kernel)
  obtain ⟨-, -, ⟨-, hSettles, -⟩, -⟩ := documents_round_trip
  obtain ⟨again, hAgain, hStays, hString⟩ := hSettles tooSmall signed hFirst
  obtain rfl := Except.ok.inj (hAgain.symm.trans hSecond)
  exact ⟨hStays, hString (by decide +kernel)⟩

end Json

end Purse
