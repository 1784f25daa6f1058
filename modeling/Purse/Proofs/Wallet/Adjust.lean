import Purse.Proofs.Decimal.Sum
import Purse.Wallet

/-!
# Adjusting a balance

`Wallet.adjust` in terms of exact values. Whether it succeeds, and what it does to the balance, does
not depend on the times of the wallet.

## Results

* `Wallet.adjust_ok`: what an adjusted wallet is.
* `Wallet.short_of_adjust`: a balance is short only if the exact sum is below zero.
* `Wallet.adjust_short`, `Wallet.exists_adjust`: what comes of a sum that fits.
* `Wallet.Alike.adjust_ok`: wallets that differ in the time of their last change only are adjusted
  alike.
-/

namespace Purse.Wallet

variable {w w' v : Wallet} {amount : Decimal} {now : Timestamp} {e : LedgerError}

/-- An adjusted wallet is live, has the sum for its balance, and is new in its time, nothing else. -/
theorem adjust_ok (hAdjust : w.adjust amount now = .ok w') :
    w.isDeleted = false ∧ Decimal.add? w.balance amount = some w'.balance ∧
      w'.balance.isBelowZero = false ∧ w' = { w with balance := w'.balance, updatedAt := now } := by
  unfold adjust at hAdjust
  split at hAdjust
  · simp at hAdjust
  · next hLive =>
    split at hAdjust
    · simp at hAdjust
    · next sum hSum =>
      split at hAdjust
      · simp at hAdjust
      · next hNot =>
        obtain rfl := Except.ok.inj hAdjust
        exact ⟨by simpa using hLive, hSum, by simpa using hNot, rfl⟩

/-- A balance is short only if the exact sum is below zero. -/
theorem short_of_adjust (hAdjust : w.adjust amount now = .error .insufficientBalance) :
    w.balance.units + amount.units < 0 := by
  unfold adjust at hAdjust
  split at hAdjust
  · simp at hAdjust
  · split at hAdjust
    · simp at hAdjust
    · next sum hSum =>
      split at hAdjust
      · -- a sum that is not below zero does not turn out so by rounding
        next hBelow =>
        by_contra hNot
        have hAbove := Decimal.isBelowZero_add? hSum (by omega)
        simp [hBelow] at hAbove
      · simp at hAdjust

/-! ## Sums that fit -/

/-- Where the sum fits, a live wallet is short if the exact sum is below zero. -/
theorem adjust_short (hFits : Decimal.SumFits w.balance amount) (hLive : w.isDeleted = false)
    (hBelow : w.balance.units + amount.units < 0) (now : Timestamp) :
    w.adjust amount now = .error .insufficientBalance := by
  obtain ⟨sum, hAdd, hSum⟩ := Decimal.exists_add? hFits
  rw [← hSum] at hBelow
  unfold adjust
  rw [hLive, hAdd, if_neg Bool.false_ne_true]
  exact if_pos (decide_eq_true hBelow)

/-- Where the sum fits, a live wallet that is not short has the exact sum for its balance. -/
theorem exists_adjust (hFits : Decimal.SumFits w.balance amount) (hLive : w.isDeleted = false)
    (hCovered : ¬ w.balance.units + amount.units < 0) (now : Timestamp) :
    ∃ w', w.adjust amount now = .ok w' ∧
      w'.balance.units = w.balance.units + amount.units := by
  obtain ⟨sum, hAdd, hSum⟩ := Decimal.exists_add? hFits
  rw [← hSum] at hCovered
  refine ⟨{ w with balance := sum, updatedAt := now }, ?_, hSum⟩
  unfold adjust
  rw [hLive, hAdd, if_neg Bool.false_ne_true]
  exact if_neg fun hBelow => hCovered (of_decide_eq_true hBelow)

/-! ## Wallets that differ in their times -/

/-- Wallets that differ in the time of their last change only. -/
def Alike (w v : Wallet) : Prop := v = { w with updatedAt := v.updatedAt }

namespace Alike

theorem refl (w : Wallet) : w.Alike w := rfl

theorem symm (hAlike : w.Alike v) : v.Alike w := by
  unfold Alike at *
  rw [hAlike]

theorem trans {u : Wallet} (hAlike : w.Alike v) (hAlike' : v.Alike u) : w.Alike u := by
  unfold Alike at *
  rw [hAlike', hAlike]

theorem balance_eq (hAlike : w.Alike v) : v.balance = w.balance := by
  rw [hAlike]

theorem id_eq (hAlike : w.Alike v) : v.id = w.id := by
  rw [hAlike]

theorem isOwnedBy_eq (hAlike : w.Alike v) (user : UserId) :
    v.isOwnedBy user = w.isOwnedBy user := by
  rw [hAlike]
  rfl

/-- Alike wallets are adjusted alike. -/
theorem adjust_ok (hAlike : w.Alike v) (hAdjust : w.adjust amount now = .ok w')
    (later : Timestamp) : ∃ v', v.adjust amount later = .ok v' ∧ w'.Alike v' := by
  obtain ⟨hLive, hSum, hNot, hNew⟩ := Wallet.adjust_ok hAdjust
  refine ⟨{ v with balance := w'.balance, updatedAt := later }, ?_, ?_⟩
  · unfold adjust
    have hDeleted : v.isDeleted = false := by
      rw [hAlike]
      exact hLive
    rw [hAlike.balance_eq, hSum, if_neg (by simp [hDeleted])]
    simp [hNot]
  · unfold Alike
    rw [hNew, hAlike]

end Alike

end Purse.Wallet
