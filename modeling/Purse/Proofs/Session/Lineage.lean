import Purse.Proofs.Crowd.Records
import Purse.Proofs.Session.Kept

/-!
# Where wallets come from

Every wallet of a store is one of those that were made for it, as it may be found later: the committed
ones stand in the order of their making, and the working copies of transactions come from them too. A
store keeps to this through all that locks, updates and transactions do. Only to store a wallet adds to
the wallets that there are, and only to ask for an id makes one, so all other calls keep the mint as well.

## Definitions

* `Wallet.OneOf`: a wallet is one of some others, as it may be found later.
* `Store.Descends`: all wallets of a store come from some that were made.
* `Call.makes`: a call makes an id or stores a wallet.

## Results

* `Store.Descends.forall₂_wallets`: the committed wallets, in the order of their making.
* `Store.Descends.forall₂_walletsOf`: the listing of a user's wallets.
* `Ledger.keeping_descends`: what keeps to it.
-/

namespace Purse

/-- The wallet is one of some others, as it may be found later. -/
def Wallet.OneOf (made : List Wallet) (w : Wallet) : Prop := ∃ m ∈ made, m.Later w

theorem Wallet.OneOf.later {made : List Wallet} {w w' : Wallet} (hOne : w.OneOf made)
    (hLater : w.Later w') : w'.OneOf made := by
  obtain ⟨m, hMem, hFirst⟩ := hOne
  exact ⟨m, hMem, hFirst.trans hLater⟩

theorem Wallet.Later.id_eq {w w' : Wallet} (hLater : w.Later w') : w'.id = w.id := by
  rw [hLater]

theorem Wallet.Later.userId_eq {w w' : Wallet} (hLater : w.Later w') : w'.userId = w.userId := by
  rw [hLater]

namespace Store

variable {made : List Wallet} {t t' : Store} {a : Agent} {id : WalletId} {w : Wallet}

/-- All wallets of a store come from some that were made, of which each has a row. -/
structure Descends (made : List Wallet) (t : Store) : Prop where
  keys : t.rows.keys = made.map Wallet.id
  rows : ∀ {id row}, t.rows.get? id = some row → row.committed.id = id ∧ row.committed.OneOf made
  copies : ∀ {a c}, c ∈ t.copies a → c.OneOf made

namespace Descends

theorem empty : Descends [] Store.empty :=
  ⟨rfl, by rintro _ _ ⟨⟩, by rintro _ _ ⟨⟩⟩

theorem congr (hDescends : t.Descends made) (hRows : t'.rows = t.rows)
    (hTransactions : t'.transactions = t.transactions) : t'.Descends made where
  keys := by rw [hRows, hDescends.keys]
  rows := by
    rw [hRows]
    exact hDescends.rows
  copies := by
    intro a c hMem
    rw [copies_congr hTransactions] at hMem
    exact hDescends.copies hMem

-- ---------------------------------------------------------------------------
-- Rows
-- ---------------------------------------------------------------------------

theorem modifyRow {f : Row → Row} (hDescends : t.Descends made) (id : WalletId)
    (hNew : ∀ row, t.rows.get? id = some row →
      (f row).committed.id = id ∧ (f row).committed.OneOf made) :
    (t.modifyRow id f).Descends made where
  keys := by rw [keys_modifyRow, hDescends.keys]
  rows := by
    intro x row hRow
    rw [get?_modifyRow] at hRow
    split at hRow
    · next hSame =>
      subst hSame
      obtain ⟨old, hOld, rfl⟩ := Option.map_eq_some_iff.mp hRow
      exact hNew old hOld
    · exact hDescends.rows hRow
  copies := hDescends.copies

/-- What happens to the lock of a row keeps its wallet. -/
theorem relock {f : Row → Row} (hDescends : t.Descends made) (id : WalletId)
    (hKeeps : ∀ row, (f row).committed = row.committed) : (t.modifyRow id f).Descends made := by
  refine hDescends.modifyRow id fun row hRow => ?_
  rw [hKeeps]
  exact hDescends.rows hRow

theorem publish (hDescends : t.Descends made) (hOne : w.OneOf made) : (t.publish w).Descends made :=
  hDescends.modifyRow w.id fun _ _ => ⟨rfl, hOne⟩

theorem foldl_publish {ws : List Wallet} (hDescends : t.Descends made)
    (hAll : ∀ w ∈ ws, w.OneOf made) : (ws.foldl Store.publish t).Descends made := by
  induction ws generalizing t with
  | nil => exact hDescends
  | cons w ws ih =>
    obtain ⟨hFirst, hRest⟩ := List.forall_mem_cons.mp hAll
    exact ih (hDescends.publish hFirst) hRest

theorem release (hDescends : t.Descends made) (id : WalletId) : (t.release id).1.Descends made := by
  rw [fst_release]
  exact hDescends.relock id fun _ => Row.committed_released

theorem releaseAll (hDescends : t.Descends made) (ids : List WalletId) :
    (t.releaseAll ids).1.Descends made := by
  induction ids generalizing t with
  | nil => exact hDescends
  | cons id ids ih => exact ih (hDescends.release id)

-- ---------------------------------------------------------------------------
-- Working copies
-- ---------------------------------------------------------------------------

theorem putCopies {ws : List Wallet} (hDescends : t.Descends made) (a : Agent)
    (hAll : ∀ w ∈ ws, w.OneOf made) :
    Descends made { t with transactions := t.transactions.put a ws } where
  keys := hDescends.keys
  rows := hDescends.rows
  copies := by
    intro b c hMem
    rw [copies_put] at hMem
    split at hMem
    · exact hAll c hMem
    · exact hDescends.copies hMem

theorem checkOut (hDescends : t.Descends made) (a : Agent) (hOne : w.OneOf made) :
    (t.checkOut a w).Descends made := by
  refine hDescends.putCopies a fun c hMem => ?_
  rcases List.mem_append.mp hMem with hOld | hNew
  · exact hDescends.copies hOld
  · rw [List.mem_singleton.mp hNew]
    exact hOne

theorem revise (hDescends : t.Descends made) (a : Agent) (hOne : w.OneOf made) :
    (t.revise a w).Descends made := by
  refine hDescends.putCopies a fun c hMem => ?_
  obtain ⟨old, hOld, rfl⟩ := List.mem_map.mp hMem
  split
  · exact hOne
  · exact hDescends.copies hOld

theorem drop (hDescends : t.Descends made) (a : Agent) : (t.drop a).1.Descends made := by
  have hErased : Descends made { t with transactions := t.transactions.erase a } := by
    refine ⟨hDescends.keys, hDescends.rows, fun {b c} hMem => ?_⟩
    unfold Store.copies at hMem
    rw [Table.get?_erase] at hMem
    split at hMem
    · cases hMem
    · exact hDescends.copies hMem
  exact hErased.releaseAll (t.locked a)

theorem commit (hDescends : t.Descends made) (a : Agent) : (t.commit a).1.Descends made :=
  (hDescends.foldl_publish fun _ hMem => hDescends.copies hMem).drop a

theorem withdraw (hDescends : t.Descends made) (a : Agent) (id : WalletId) :
    (t.withdraw a id).1.Descends made := by
  unfold Store.withdraw
  split
  · exact hDescends.release id
  · exact hDescends.relock id fun _ => Row.committed_left

-- ---------------------------------------------------------------------------
-- Calls
-- ---------------------------------------------------------------------------

theorem wallet? (hDescends : t.Descends made) (hWallet : t.wallet? id = some w) :
    w.id = id ∧ w.OneOf made := by
  obtain ⟨row, hRow, rfl⟩ := Option.map_eq_some_iff.mp hWallet
  exact hDescends.rows hRow

theorem copy? (hDescends : t.Descends made) (hCopy : t.copy? a id = some w) : w.OneOf made :=
  hDescends.copies (List.mem_of_find?_eq_some hCopy)

theorem acquire {α : Type} {granted : Store → Step α} (hDescends : t.Descends made) (row : Row)
    (hGranted : ∀ {t : Store}, t.Descends made → (granted t).store.Descends made) :
    (t.acquire a id row granted).store.Descends made := by
  have hEntered : (t.modifyRow id (·.entered a)).Descends made :=
    hDescends.relock id fun _ => Row.committed_entered
  unfold Store.acquire
  simp only
  split
  · exact hGranted hEntered
  · exact hEntered

theorem lockGranted (hDescends : t.Descends made) (user : UserId) :
    (t.lockGranted a id user).store.Descends made := by
  unfold Store.lockGranted
  split
  · exact hDescends
  · next w hWallet =>
    split
    · exact hDescends.checkOut a (hDescends.wallet? hWallet).2
    · exact hDescends.release id

theorem lock (hDescends : t.Descends made) (user : UserId) :
    (t.lock a id user).store.Descends made := by
  unfold Store.lock
  split
  · exact hDescends
  · split
    · exact hDescends
    · split
      · exact hDescends.acquire _ fun hThere => hThere.lockGranted user
      · exact hDescends

theorem addToCopy (hDescends : t.Descends made) (hOne : w.OneOf made) (amount : Decimal)
    (now : Timestamp) : (t.addToCopy a w amount now).store.Descends made := by
  unfold Store.addToCopy
  split
  · exact hDescends
  · next w' hAdjust => exact hDescends.revise a (hOne.later (.of_adjust hAdjust))

theorem addWithinGranted (hDescends : t.Descends made) (amount : Decimal) (now : Timestamp) :
    (t.addWithinGranted a id amount now).store.Descends made := by
  unfold Store.addWithinGranted
  split
  · exact hDescends
  · next w hWallet =>
    obtain ⟨-, hOne⟩ := hDescends.wallet? hWallet
    exact (hDescends.checkOut a hOne).addToCopy hOne amount now

theorem addWithin (hDescends : t.Descends made) (amount : Decimal) (now : Timestamp) :
    (t.addWithin a id amount now).store.Descends made := by
  unfold Store.addWithin
  split
  · exact hDescends.congr rfl rfl
  · split
    · next w hCopy => exact hDescends.addToCopy (hDescends.copy? hCopy) amount now
    · split
      · exact hDescends
      · exact hDescends.acquire _ fun hThere => hThere.addWithinGranted amount now

theorem addGranted (hDescends : t.Descends made) (amount : Decimal) (now : Timestamp) :
    (t.addGranted id amount now).store.Descends made := by
  unfold Store.addGranted
  split
  · exact hDescends
  · next w hWallet =>
    split
    · exact hDescends.release id
    · next w' hAdjust =>
      obtain ⟨-, hOne⟩ := hDescends.wallet? hWallet
      exact (hDescends.publish (hOne.later (.of_adjust hAdjust))).release id

theorem add (hDescends : t.Descends made) (amount : Decimal) (now : Timestamp) :
    (t.add a id amount now).store.Descends made := by
  unfold Store.add
  split
  · exact hDescends
  · exact hDescends.acquire _ fun hThere => hThere.addGranted amount now

/-- A wallet that is stored was not among those made before, and comes last. -/
theorem insert (hDescends : t.Descends made) (hInsert : t.insert w = .ok t') :
    t'.Descends (made ++ [w]) where
  keys := by rw [keys_insert hInsert, hDescends.keys, List.map_append, List.map_singleton]
  rows := by
    have hMore : ∀ {v : Wallet}, v.OneOf made → v.OneOf (made ++ [w]) := by
      rintro v ⟨m, hMem, hLater⟩
      exact ⟨m, List.mem_append_left _ hMem, hLater⟩
    intro x row hRow
    rw [(insert_eq_ok hInsert).2.1] at hRow
    split at hRow
    · next hSame =>
      cases hRow
      exact ⟨hSame, w, List.mem_append_right _ (List.mem_singleton_self w), .refl w⟩
    · obtain ⟨hId, hOne⟩ := hDescends.rows hRow
      exact ⟨hId, hMore hOne⟩
  copies := by
    intro b c hMem
    rw [copies_congr (insert_eq_ok hInsert).2.2] at hMem
    obtain ⟨m, hMade, hLater⟩ := hDescends.copies hMem
    exact ⟨m, List.mem_append_left _ hMade, hLater⟩

-- ---------------------------------------------------------------------------
-- Listings
-- ---------------------------------------------------------------------------

theorem nodup_ids (hDescends : t.Descends made) : (made.map Wallet.id).Nodup := by
  rw [← hDescends.keys]
  exact t.rows.nodup

/-- A wallet that was made is there, as it may be found later. -/
theorem exists_later (hDescends : t.Descends made) (hMem : w ∈ made) :
    ∃ w', t.wallet? w.id = some w' ∧ w.Later w' := by
  have hKey : w.id ∈ t.rows.keys := by
    rw [hDescends.keys]
    exact List.mem_map_of_mem hMem
  obtain ⟨row, hRow⟩ := Option.isSome_iff_exists.mp (Table.mem_keys_iff.mp hKey)
  obtain ⟨hId, m, hMade, hLater⟩ := hDescends.rows hRow
  -- no two of the wallets that were made have one id
  have hSame : m = w := List.inj_on_of_nodup_map hDescends.nodup_ids hMade hMem
    (hLater.id_eq.symm.trans hId)
  subst hSame
  exact ⟨row.committed, wallet?_of_get? hRow, hLater⟩

/-- The committed wallets are those that were made, as they may be found later, in the order of their
making. -/
theorem forall₂_wallets (hDescends : t.Descends made) : List.Forall₂ Wallet.Later made t.wallets := by
  have hWallets : t.wallets = made.filterMap fun m => t.wallet? m.id := by
    rw [wallets_eq_filterMap, hDescends.keys, List.filterMap_map]
    rfl
  rw [hWallets]
  have hAll : ∀ m ∈ made, ∃ w', t.wallet? m.id = some w' ∧ m.Later w' := fun m hMem =>
    hDescends.exists_later hMem
  generalize made = ms at hAll
  induction ms with
  | nil => exact List.Forall₂.nil
  | cons m ms ih =>
    obtain ⟨⟨w', hWallet, hLater⟩, hRest⟩ := List.forall_mem_cons.mp hAll
    rw [List.filterMap_cons]
    simp only [hWallet]
    exact List.Forall₂.cons hLater (ih hRest)

/-- If ids ascend, the wallets of a user are listed in the order of their making. -/
theorem forall₂_walletsOf (hDescends : t.Descends made)
    (hAscend : made.Pairwise fun m n => m.id.val < n.id.val) (user : UserId) :
    List.Forall₂ Wallet.Later (made.filter (·.isOwnedBy user)) (t.walletsOf user) := by
  have hWallets := hDescends.forall₂_wallets
  unfold walletsOf
  generalize t.wallets = ws at hWallets
  have hIds : List.Forall₂ Eq (made.map Wallet.id) (ws.map Wallet.id) :=
    List.rel_map (fun _ _ hLater => hLater.id_eq.symm) hWallets
  rw [List.forall₂_eq_eq_eq] at hIds
  have hSorted : ws.Pairwise fun v w => v.id.val ≤ w.id.val := by
    rw [← List.pairwise_map (f := Wallet.id) (R := fun x y : WalletId => x.val ≤ y.val), ← hIds,
      List.pairwise_map]
    exact hAscend.imp Nat.le_of_lt
  rw [List.mergeSort_of_pairwise ((hSorted.filter _).imp fun hLe => decide_eq_true hLe)]
  refine List.rel_filter (fun m w hLater => ?_) hWallets
  show m.isOwnedBy user = true ↔ w.isOwnedBy user = true
  rw [hLater.isOwnedBy_eq]

end Descends

end Store

-- ---------------------------------------------------------------------------
-- Ledgers
-- ---------------------------------------------------------------------------

/-- The call makes an id, or stores a wallet. -/
def Call.makes : Call → Bool
  | .newId | .insert _ => true
  | _ => false

namespace Ledger

variable {made : List Wallet} {mint : Mint} {l : Ledger} {c : Call}

/-- All wallets of a ledger come from some that were made, and its mint has come as far as it has. -/
structure Descends (made : List Wallet) (mint : Mint) (l : Ledger) : Prop where
  store : l.store.Descends made
  mint_eq : l.mint = mint

theorem Descends.ofStep (hMint : l.mint = mint) {step : Store.Step c.Answer}
    (hStep : step.store.Descends made) : (l.ofStep step).ledger.Descends made mint := by
  cases step with
  | replied answer t woken => exact ⟨hStep, hMint⟩
  | waiting row t => exact ⟨hStep, hMint⟩

theorem Descends.execute (hDescends : l.Descends made mint) (env : Surroundings) (a : Agent)
    (hCall : c.makes = false) : (l.execute env a c).ledger.Descends made mint := by
  obtain ⟨hStore, hMint⟩ := hDescends
  cases c with
  | newId | insert w => cases hCall
  | begin => exact ⟨hStore.putCopies a (by rintro _ ⟨⟩), hMint⟩
  | commit => exact ⟨hStore.commit a, hMint⟩
  | rollback => exact ⟨hStore.drop a, hMint⟩
  | lock id user => exact .ofStep hMint (hStore.lock user)
  | addWithin id amount => exact .ofStep (l := l.read) hMint (hStore.addWithin amount _)
  | add id amount => exact .ofStep (l := l.read) hMint (hStore.add amount _)
  | claim key =>
    simp only [Ledger.execute]
    split <;> exact ⟨hStore, hMint⟩
  | get | list | release | readClock => exact ⟨hStore, hMint⟩

theorem Descends.resume (hDescends : l.Descends made mint) (env : Surroundings) (a : Agent)
    (hCall : c.makes = false) : (l.resume env a c).ledger.Descends made mint := by
  obtain ⟨hStore, hMint⟩ := hDescends
  cases c with
  | lock id user => exact .ofStep hMint (hStore.lockGranted user)
  | addWithin id amount => exact .ofStep (l := l.read) hMint (hStore.addWithinGranted amount _)
  | add id amount => exact .ofStep (l := l.read) hMint (hStore.addGranted amount _)
  | _ => exact Descends.execute ⟨hStore, hMint⟩ env a hCall

/-- All calls but those that make something keep to it. -/
theorem keeping_descends (env : Surroundings) (made : List Wallet) (mint : Mint) :
    Ledger.Keeping env (fun c => c.makes = false) (Ledger.Descends made mint) where
  aside hRows hTransactions hMint hDescends :=
    ⟨hDescends.store.congr hRows hTransactions, hMint.trans hDescends.mint_eq⟩
  execute hCall hDescends := hDescends.execute env _ hCall
  resume hCall hDescends := hDescends.resume env _ hCall
  drop a hDescends := ⟨hDescends.store.drop a, hDescends.mint_eq⟩
  withdraw a id hDescends := ⟨hDescends.store.withdraw a id, hDescends.mint_eq⟩

end Ledger

end Purse
