import Purse.Decimal.Text
import Purse.Proofs.Crowd.Play
import Purse.Proofs.Decimal.Accuracy

/-!
# The total in any order

The total of a store is added up from wallet to wallet, and nothing says in which order they come. Where
no addition is rounded the order makes no difference: the total is the exact one, or in no order is there
any. That is so wherever the exact total still fits at the scale of the balance with the most places. With
rounding, the order may decide what the total is, and even whether there is one; but totals differ little,
and only near the capacity is there one in one order and none in another.

## Definitions

* `Store.totalOf?`: the total of wallets in the order in which they come.

## Results

* `Store.total_in_any_order`: the totals of the wallets of a store in two orders.
-/

namespace Purse

namespace Store

open Decimal

variable {s : Store} {ws vs : List Wallet}

/-- The total of wallets, in the order in which they come. -/
def totalOf? (ws : List Wallet) : Option Decimal := Decimal.sum? (ws.map Wallet.balance)

/-- The wallets of a store in some order: what there is to be known about their balances. -/
theorem exactOf_balances (hOrder : ws.Perm s.wallets) :
    exactOf (ws.map Wallet.balance) = s.totalUnits := by
  rw [exactOf_perm (hOrder.map Wallet.balance)]
  exact congrArg exactSum (List.map_map ..)

/-- Where nothing is rounded there is a total if and only if the exact one is within reach, and it is
exact. -/
theorem totalOf?_cases (hExact : Unrounded zero (ws.map Wallet.balance))
    (hNonneg : AllNonneg (ws.map Wallet.balance)) (hOrder : ws.Perm s.wallets) :
    totalOf? ws = none ∧ OutOfReach s.totalUnits ∨
      ∃ t, totalOf? ws = some t ∧ t.units = s.totalUnits := by
  have hZero : zero.units = 0 := by decide
  have hCases := hExact.sumFrom?_cases hNonneg hZero.ge
  rwa [hZero, Int.zero_add, exactOf_balances hOrder] at hCases

/-- The total of the wallets of a store, none of which is below zero, in two orders.

Where no addition is rounded in either order, there is no total in either, or it is the exact one in both.
No order needs rounding if and only if each part of the balances has a sum that is the value of a decimal
or too large for any; and it suffices that the exact total fits at a scale which no balance is beyond:
then there is a total, in any order.

Be anything rounded or not, a total differs from the exact one by no more than a small part of itself for
each wallet. If there is a total in one order and none in the other, the exact total differs from the
capacity by no more than half of one for each wallet. -/
theorem total_in_any_order (s : Store) (hNonneg : ∀ w ∈ s.wallets, 0 ≤ w.balance.units)
    (hFirst : ws.Perm s.wallets) (hSecond : vs.Perm s.wallets) :
    s.total? = totalOf? s.wallets ∧
    (Unrounded zero (ws.map Wallet.balance) → Unrounded zero (vs.map Wallet.balance) →
      totalOf? ws = none ∧ totalOf? vs = none ∨
        ∃ t u, totalOf? ws = some t ∧ totalOf? vs = some u ∧
          t.units = s.totalUnits ∧ u.units = s.totalUnits) ∧
    ((∀ es : List Decimal, es.Perm (s.wallets.map Wallet.balance) → Unrounded zero es) ↔
      PartsRepresentable (s.wallets.map Wallet.balance)) ∧
    (∀ scale ≤ maxScale, (∀ w ∈ s.wallets, w.balance.scale ≤ scale) →
      s.totalUnits < (capacity * Nat.pow 10 (maxScale - scale) : Nat) →
      ∃ t, totalOf? ws = some t ∧ t.units = s.totalUnits) ∧
    (∀ t, totalOf? ws = some t →
      t.error s.totalUnits * capacity ≤ s.wallets.length * (5 * t.units.natAbs)) ∧
    (totalOf? ws = none → totalOf? vs ≠ none →
      2 * capacity * Nat.pow 10 maxScale ≤
        2 * s.totalUnits.natAbs + s.wallets.length * Nat.pow 10 maxScale ∧
      2 * s.totalUnits.natAbs <
        2 * capacity * Nat.pow 10 maxScale + s.wallets.length * Nat.pow 10 maxScale) := by
  have hBalances : ∀ {us : List Wallet}, us.Perm s.wallets → AllNonneg (us.map Wallet.balance) := by
    intro us hOrder d hMem
    obtain ⟨w, hWallet, rfl⟩ := List.mem_map.mp hMem
    exact hNonneg w (hOrder.mem_iff.mp hWallet)
  have hLength : ∀ {us : List Wallet}, us.Perm s.wallets →
      (us.map Wallet.balance).length = s.wallets.length := fun hOrder =>
    (List.length_map _).trans hOrder.length_eq
  have hAll := hBalances (List.Perm.refl s.wallets)
  refine ⟨rfl, fun hExact hExact' => ?_, forall_unrounded_iff hAll, ?_, ?_, ?_⟩
  · rcases totalOf?_cases hExact (hBalances hFirst) hFirst with ⟨hNone, hReach⟩ | ⟨t, hTotal, hUnits⟩
    · rcases totalOf?_cases hExact' (hBalances hSecond) hSecond with ⟨hNone', -⟩ | ⟨u, -, hUnits⟩
      · exact Or.inl ⟨hNone, hNone'⟩
      · exact absurd (hUnits ▸ hReach) u.not_outOfReach_units
    · rcases totalOf?_cases hExact' (hBalances hSecond) hSecond with ⟨-, hReach⟩ | ⟨u, hTotal', hUnits'⟩
      · exact absurd (hUnits ▸ hReach) t.not_outOfReach_units
      · exact Or.inr ⟨t, u, hTotal, hTotal', hUnits, hUnits'⟩
  · intro scale hScale hScales hFits
    have hScales' : ∀ d ∈ s.wallets.map Wallet.balance, d.scale ≤ scale := by
      intro d hMem
      obtain ⟨w, hWallet, rfl⟩ := List.mem_map.mp hMem
      exact hScales w hWallet
    have hExact := exactOf_balances (List.Perm.refl s.wallets)
    have hParts := partsRepresentable_of_fits hAll hScale hScales' (hExact ▸ hFits)
    have hUnrounded := (forall_unrounded_iff hAll).mpr hParts _ (hFirst.map Wallet.balance)
    rcases totalOf?_cases hUnrounded (hBalances hFirst) hFirst with ⟨-, hReach⟩ | hTotal
    · obtain ⟨d, hUnits⟩ := representable_of_fits hAll hScale hScales' (hExact ▸ hFits)
      exact absurd (hUnits.trans hExact ▸ hReach) d.not_outOfReach_units
    · exact hTotal
  · intro t hTotal
    have hError := error_sum? (hBalances hFirst) hTotal
    rwa [exactOf_balances hFirst, hLength hFirst] at hError
  · intro hNone hSome
    obtain ⟨t, hTotal⟩ := Option.ne_none_iff_exists'.mp hSome
    have hAbove := exact_of_sum?_eq_none (hBalances hFirst) hNone
    have hBelow := exact_of_sum?_eq_some (hBalances hSecond) hTotal
    rw [exactOf_balances hFirst, hLength hFirst] at hAbove
    rw [exactOf_balances hSecond, hLength hSecond] at hBelow
    exact ⟨hAbove, hBelow⟩

-- what the additions are off by can decide the total, and whether there is any
example :
    (sum? (["7000000000000000000000000000", "0.04", "0.04"].filterMap parse?)).map text =
      some "7000000000000000000000000000.0" ∧
    (sum? (["0.04", "0.04", "7000000000000000000000000000"].filterMap parse?)).map text =
      some "7000000000000000000000000000.1" ∧
    (sum? (["79228162514264337593543950335", "0.4", "0.4"].filterMap parse?)).isSome ∧
    sum? (["0.4", "0.4", "79228162514264337593543950335"].filterMap parse?) = none := by
  decide +kernel

/-- Five wallets with a balance of all the places there are. -/
def fiveLong : Store :=
  ofWallets ((List.range 5).map fun n =>
    Crowd.walletOf (n + 1) ⟨false, 7 * 10 ^ 28 + 2, 28, by decide, by decide⟩)

/-- The exact total of five wallets is the value of a decimal, but their total is another one. -/
theorem fiveLong_total_rounded :
    fiveLong.total? = some ⟨false, 35 * 10 ^ 27, 27, by decide, by decide⟩ ∧
    fiveLong.totalUnits =
      (⟨false, 35 * 10 ^ 27 + 1, 27, by decide, by decide⟩ : Decimal).units ∧
    ¬ PartsRepresentable (fiveLong.wallets.map Wallet.balance) := by
  have hSame := List.Perm.refl fiveLong.wallets
  obtain ⟨hTotalOf, hExact, hParts, -⟩ := fiveLong.total_in_any_order (by decide +kernel) hSame hSame
  have hTotal : fiveLong.total? = some ⟨false, 35 * 10 ^ 27, 27, by decide, by decide⟩ := by
    decide +kernel
  have hUnits : fiveLong.totalUnits =
      (⟨false, 35 * 10 ^ 27 + 1, 27, by decide, by decide⟩ : Decimal).units := by
    decide +kernel
  refine ⟨hTotal, hUnits, fun hAll => ?_⟩
  have hUnrounded := hParts.mpr hAll _ (List.Perm.refl _)
  rcases hExact hUnrounded hUnrounded with ⟨hNone, -⟩ | ⟨t, -, hSome, -, hOff, -⟩
  · rw [← hTotalOf, hTotal] at hNone
    cases hNone
  · rw [← hTotalOf, hTotal] at hSome
    obtain rfl := Option.some.inj hSome
    rw [hUnits] at hOff
    exact absurd hOff (by decide +kernel)

end Store

end Purse
