import Purse.Proofs.Decimal.Reach
import Purse.Proofs.Wallet.Adjust

/-!
# Why an amount is refused

Whether an amount is added to a balance is decided by the sign of a sum that may have been rounded.
It comes to the same as deciding by exact values (`Wallet.refusal?`), as a sum has the sign of the
exact value and there is none only where the exact value is out of reach.

## Definitions

* `Wallet.refusal?`: why an amount is refused, in exact values.

## Results

* `Wallet.adjust_eq_error_iff`, `Wallet.exists_adjust_iff`: an amount is refused for just this reason.
* `Wallet.adjust_eq_short_iff`, `Wallet.adjust_ne_invalidAmount`: a balance that is not below zero.
* `Wallet.exists_debit`: a balance that covers an amount can be debited.
-/

namespace Purse.Wallet

variable {w : Wallet} {amount : Decimal} {now : Timestamp} {e : LedgerError}

/-- Why an amount is not added to the balance of a wallet: the wallet is deleted, or the exact sum is
out of reach, or below zero. -/
def refusal? (w : Wallet) (amount : Decimal) : Option LedgerError :=
  if w.isDeleted then some .emptyWallet
  else if Decimal.OutOfReach (w.balance.units + amount.units) then some .invalidAmount
  else if w.balance.units + amount.units < 0 then some .insufficientBalance
  else none

/-- An amount is refused for this reason, or else the balance becomes the sum. -/
theorem adjust_cases (w : Wallet) (amount : Decimal) (now : Timestamp) :
    (∃ e, w.refusal? amount = some e ∧ w.adjust amount now = .error e) ∨
    (w.refusal? amount = none ∧ ∃ sum, Decimal.add? w.balance amount = some sum ∧
      w.adjust amount now = .ok { w with balance := sum, updatedAt := now }) := by
  unfold refusal? adjust
  split
  · exact Or.inl ⟨_, rfl, rfl⟩
  · cases hAdd : Decimal.add? w.balance amount with
    | none =>
      have hReach := Decimal.add?_eq_none_iff.mp hAdd
      rw [if_pos hReach]
      exact Or.inl ⟨_, rfl, rfl⟩
    | some sum =>
      have hReach : ¬ Decimal.OutOfReach (w.balance.units + amount.units) := by
        rw [← Decimal.add?_eq_none_iff, hAdd]
        simp
      have hSign := Decimal.isBelowZero_add?_iff hAdd
      rw [if_neg hReach]
      by_cases hShort : w.balance.units + amount.units < 0
      · have hBelow := hSign.mpr hShort
        simp only [if_pos hShort, if_pos hBelow]
        exact Or.inl ⟨_, rfl, rfl⟩
      · have hNot : ¬ sum.isBelowZero = true := fun hBelow => hShort (hSign.mp hBelow)
        rw [if_neg hShort]
        exact Or.inr ⟨rfl, sum, rfl, if_neg hNot⟩

theorem adjust_eq_error_iff : w.adjust amount now = .error e ↔ w.refusal? amount = some e := by
  obtain ⟨e', hRefusal, hAdjust⟩ | ⟨hRefusal, sum, -, hAdjust⟩ := adjust_cases w amount now
  · rw [hRefusal, hAdjust]
    simp
  · rw [hRefusal, hAdjust]
    simp

theorem exists_adjust_iff : (∃ w', w.adjust amount now = .ok w') ↔ w.refusal? amount = none := by
  obtain ⟨e', hRefusal, hAdjust⟩ | ⟨hRefusal, sum, -, hAdjust⟩ := adjust_cases w amount now
  · rw [hRefusal, hAdjust]
    simp
  · rw [hRefusal, hAdjust]
    simp

/-- Wallets that differ in their times only refuse the same amounts, for the same reasons. -/
theorem Alike.refusal?_eq {v : Wallet} (hAlike : w.Alike v) (amount : Decimal) :
    v.refusal? amount = w.refusal? amount := by
  rw [hAlike]
  rfl

/-! ## Balances that are not below zero -/

/-- A balance that is not below zero is short of an amount if and only if the exact sum is below
zero. -/
theorem adjust_eq_short_iff (hLive : w.isDeleted = false) (hBalance : 0 ≤ w.balance.units) :
    w.adjust amount now = .error .insufficientBalance ↔ w.balance.units + amount.units < 0 := by
  refine ⟨short_of_adjust, fun hShort => ?_⟩
  have hReach : ¬ Decimal.OutOfReach (w.balance.units + amount.units) :=
    Decimal.not_outOfReach_add hBalance (by omega)
  rw [adjust_eq_error_iff, refusal?, hLive, if_neg Bool.false_ne_true, if_neg hReach,
    if_pos hShort]

/-- What is taken from a balance that is not below zero never takes the sum out of reach. -/
theorem adjust_ne_invalidAmount (hBalance : 0 ≤ w.balance.units) (hAmount : amount.units ≤ 0) :
    w.adjust amount now ≠ .error .invalidAmount := by
  have hReach := Decimal.not_outOfReach_add hBalance hAmount
  rw [Ne, adjust_eq_error_iff, refusal?, if_neg hReach]
  split
  · rintro ⟨⟩
  · split <;> rintro ⟨⟩

/-- A live wallet whose balance covers an amount can be debited with it. -/
theorem exists_debit (hLive : w.isDeleted = false) (hAmount : 0 ≤ amount.units)
    (hCovered : amount.units ≤ w.balance.units) (now : Timestamp) :
    ∃ w', w.adjust amount.neg now = .ok w' := by
  have hNeg : amount.neg.units = -amount.units := amount.units_neg
  have hReach : ¬ Decimal.OutOfReach (w.balance.units + amount.neg.units) :=
    Decimal.not_outOfReach_add (by omega) (by omega)
  rw [exists_adjust_iff, refusal?, hLive, if_neg Bool.false_ne_true, if_neg hReach,
    if_neg (by omega)]

end Purse.Wallet
