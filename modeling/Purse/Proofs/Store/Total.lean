import Mathlib.Data.List.Perm.Basic
import Mathlib.Logic.Function.Basic
import Purse.Proofs.Store.Lookup

/-!
# The exact total

The exact sum of all committed balances (`Store.totalUnits`), as it follows from the balance of each
wallet.

## Results

* `Store.totalUnits_of_isSome`: the total, by the ids of the wallets.
* `Store.exactSum_update_wallet`: the sum of all balances after one of the wallets changed.
-/

namespace Purse

namespace Table

variable {κ α : Type} [DecidableEq κ]

theorem lookup_of_mem {es : List (κ × α)} (hNodup : (es.map Prod.fst).Nodup) {k : κ} {v : α}
    (hMem : (k, v) ∈ es) : lookup k es = some v := by
  induction es with
  | nil => simp at hMem
  | cons e es ih =>
    rw [List.map_cons, List.nodup_cons] at hNodup
    unfold lookup
    rcases List.mem_cons.mp hMem with rfl | hRest
    · exact if_pos rfl
    · -- the head has another key, as keys are distinct
      rw [if_neg]
      · exact ih hNodup.2 hRest
      · rintro rfl
        exact hNodup.1 (List.mem_map.mpr ⟨_, hRest, rfl⟩)

theorem mem_keys_iff {t : Table κ α} {k : κ} : k ∈ t.keys ↔ (t.get? k).isSome = true := by
  unfold keys get?
  induction t.entries with
  | nil => simp [lookup]
  | cons e es ih =>
    rw [List.map_cons, List.mem_cons, lookup, ih]
    by_cases hHead : e.1 = k
    · simp [hHead]
    · simp [hHead, Ne.symm hHead]

end Table

namespace Store

variable {s s' : Store} {id : WalletId} {wallet? : WalletId → Option Wallet} {w w' : Wallet}

/-- The exact balance of an id, zero if it has no wallet. -/
def unitsOf (wallet? : WalletId → Option Wallet) (id : WalletId) : Int :=
  ((wallet? id).map fun w => w.balance.units).getD 0

/-- The exact sum of some numbers. -/
def exactSum (ns : List Int) : Int := ns.foldr (· + ·) 0

/-- The exact sum of all committed balances. -/
def totalUnits (s : Store) : Int := exactSum (s.wallets.map fun w => w.balance.units)

theorem exactSum_perm {ms ns : List Int} (hPerm : ms.Perm ns) : exactSum ms = exactSum ns := by
  induction hPerm with
  | nil => rfl
  | cons x hPerm ih => exact congrArg (x + ·) ih
  | swap x y ns =>
    show y + (x + exactSum ns) = x + (y + exactSum ns)
    omega
  | trans hFirst hSecond ihFirst ihSecond => exact ihFirst.trans ihSecond

/-- The total, by the ids of the wallets. -/
theorem totalUnits_eq (s : Store) :
    s.totalUnits = exactSum (s.rows.keys.map (unitsOf s.wallet?)) := by
  unfold totalUnits wallets Table.values Table.keys
  rw [List.map_map, List.map_map, List.map_map]
  refine congrArg exactSum (List.map_congr_left fun e hMem => ?_)
  have hGet : s.rows.get? e.1 = some e.2 := Table.lookup_of_mem s.rows.nodup hMem
  show e.2.committed.balance.units = unitsOf s.wallet? e.1
  unfold unitsOf
  rw [wallet?_of_get? hGet]
  rfl

theorem mem_keys_iff : id ∈ s.rows.keys ↔ (s.wallet? id).isSome = true := by
  rw [Table.mem_keys_iff, wallet?, Option.isSome_map]

/-- A store keeps the ids of its wallets, in some order. -/
theorem keys_perm {ids : List WalletId} (hNodup : ids.Nodup)
    (hIds : ∀ x, x ∈ ids ↔ (s.wallet? x).isSome = true) : s.rows.keys.Perm ids := by
  refine (List.perm_ext_iff_of_nodup s.rows.nodup hNodup).mpr fun x => ?_
  rw [hIds]
  exact mem_keys_iff

theorem keys_perm_of_isSome (hIds : ∀ x, (s'.wallet? x).isSome = (s.wallet? x).isSome) :
    s'.rows.keys.Perm s.rows.keys :=
  keys_perm s.rows.nodup fun x => by
    rw [hIds]
    exact mem_keys_iff

/-- The total of a store, by the ids of the wallets of another one that has the same. -/
theorem totalUnits_of_isSome (hIds : ∀ x, (s'.wallet? x).isSome = (s.wallet? x).isSome) :
    s'.totalUnits = exactSum (s.rows.keys.map (unitsOf s'.wallet?)) := by
  rw [totalUnits_eq]
  exact exactSum_perm ((keys_perm_of_isSome hIds).map _)

/-- A store that has a wallet more keeps its id as well. -/
theorem keys_perm_of_new (hNew : s.wallet? id = none)
    (hWallets : s'.wallet? = Function.update s.wallet? id (some w)) :
    s'.rows.keys.Perm (id :: s.rows.keys) := by
  have hNot : id ∉ s.rows.keys := by
    rw [mem_keys_iff, hNew]
    exact Bool.false_ne_true
  refine keys_perm (List.nodup_cons.mpr ⟨hNot, s.rows.nodup⟩) fun x => ?_
  rw [List.mem_cons, mem_keys_iff, hWallets, Function.update_apply]
  split
  · next hx => simp [hx]
  · next hx => simp [hx]

/-- A wallet more adds its balance to the total. -/
theorem totalUnits_of_new (hNew : s.wallet? id = none)
    (hWallets : s'.wallet? = Function.update s.wallet? id (some w)) :
    s'.totalUnits = w.balance.units + s.totalUnits := by
  have hUnits : unitsOf s'.wallet? id = w.balance.units := by
    unfold unitsOf
    rw [hWallets, Function.update_self]
    rfl
  have hOthers : s.rows.keys.map (unitsOf s'.wallet?) = s.rows.keys.map (unitsOf s.wallet?) := by
    refine List.map_congr_left fun x hMem => ?_
    unfold unitsOf
    rw [hWallets, Function.update_of_ne]
    rintro rfl
    rw [mem_keys_iff, hNew] at hMem
    cases hMem
  rw [totalUnits_eq, exactSum_perm ((keys_perm_of_new hNew hWallets).map _), List.map_cons, hOthers,
    hUnits, totalUnits_eq]
  rfl

/-- The sum after one of the summands changed. -/
theorem exactSum_update {ids : List WalletId} (hNodup : ids.Nodup) (hMem : id ∈ ids)
    (f : WalletId → Int) (n : Int) :
    exactSum (ids.map (Function.update f id n)) = exactSum (ids.map f) + (n - f id) := by
  induction ids with
  | nil => simp at hMem
  | cons x ids ih =>
    obtain ⟨hNot, hRest⟩ := List.nodup_cons.mp hNodup
    show Function.update f id n x + exactSum (ids.map _) = f x + exactSum (ids.map f) + _
    by_cases hx : x = id
    · -- the changed summand, which does not come again
      subst hx
      have hSame : ids.map (Function.update f x n) = ids.map f := by
        refine List.map_congr_left fun y hy => Function.update_of_ne ?_ n f
        rintro rfl
        exact hNot hy
      rw [hSame, Function.update_self]
      omega
    · rw [ih hRest (List.mem_of_ne_of_mem (Ne.symm hx) hMem), Function.update_of_ne hx]
      omega

/-- The sum of all balances after one of the wallets changed. -/
theorem exactSum_update_wallet {ids : List WalletId} (hNodup : ids.Nodup) (hMem : id ∈ ids)
    (hWallet : wallet? id = some w) :
    exactSum (ids.map (unitsOf (Function.update wallet? id (some w')))) =
      exactSum (ids.map (unitsOf wallet?)) + (w'.balance.units - w.balance.units) := by
  have hUnits : unitsOf (Function.update wallet? id (some w')) =
      Function.update (unitsOf wallet?) id w'.balance.units := by
    funext x
    unfold unitsOf
    by_cases hx : x = id
    · subst hx
      simp
    · simp [hx]
  have hOld : unitsOf wallet? id = w.balance.units := by
    unfold unitsOf
    rw [hWallet]
    rfl
  rw [hUnits, exactSum_update hNodup hMem, hOld]

end Store

end Purse
