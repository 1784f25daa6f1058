import Purse.Proofs.Store.Lines

/-!
# Looking into the store

A store is looked at through its rows, its lines, its committed wallets and the working copies of
each agent. This file says what every change of the store does to these. Rows are changed by
`modifyRow` alone, so the lookups after a change all come down to one conditional.

## Results

* `get?_drop`, `get?_commit`: the row of an id after a transaction has ended.
* `wallet?_drop`, `wallet?_commit`: the committed wallet after a transaction has ended.
* `copies_checkOut`, `copies_revise`, `copies_begin`, `copies_drop`, `copies_commit`: the working
  copies of every agent after one agent's transaction changed.
-/

namespace Purse.Store

/-- Everybody at the row of an id, the holder in front; nobody if there is no row. -/
def line (s : Store) (id : WalletId) : List Agent := ((s.rows.get? id).map Row.line).getD []

/-- Who holds the row of an id. -/
def holder? (s : Store) (id : WalletId) : Option Agent := (s.rows.get? id).bind Row.holder

variable {s : Store} {a b : Agent} {id x : WalletId} {w : Wallet} {row : Row}

theorem holds_iff : s.holds a id = true ↔ s.holder? id = some a := by
  unfold holds holder?
  cases s.rows.get? id with
  | none => simp
  | some row => simp

theorem line_of_get? (hRow : s.rows.get? id = some row) : s.line id = row.line := by
  simp [line, hRow]

theorem holder?_of_get? (hRow : s.rows.get? id = some row) : s.holder? id = row.holder := by
  simp [holder?, hRow]

theorem wallet?_of_get? (hRow : s.rows.get? id = some row) : s.wallet? id = some row.committed := by
  simp [wallet?, hRow]

theorem exists_row_of_mem_line (hMem : a ∈ s.line id) : ∃ row, s.rows.get? id = some row := by
  unfold line at hMem
  cases hRow : s.rows.get? id with
  | none => simp [hRow] at hMem
  | some row => exact ⟨row, rfl⟩

theorem exists_row_of_wallet? (hWallet : s.wallet? id = some w) :
    ∃ row, s.rows.get? id = some row ∧ row.committed = w := by
  simpa [wallet?] using hWallet

theorem exists_row_of_holder? (hHolder : s.holder? id = some a) :
    ∃ row, s.rows.get? id = some row ∧ row.holder = some a := by
  simpa [holder?, Option.bind_eq_some_iff] using hHolder

/-! ## Working copies -/

theorem mem_locked_iff_copy? : id ∈ s.locked a ↔ (s.copy? a id).isSome = true := by
  simp [locked, copy?, List.find?_isSome]

theorem copy?_eq_none_iff : s.copy? a id = none ↔ id ∉ s.locked a := by
  rw [mem_locked_iff_copy?]
  cases s.copy? a id <;> simp

theorem id_of_copy? (hCopy : s.copy? a id = some w) : w.id = id := by
  simpa using List.find?_some hCopy

theorem mem_locked_of_copy? (hCopy : s.copy? a id = some w) : id ∈ s.locked a := by
  rw [mem_locked_iff_copy?, hCopy]
  rfl

/-! ## Changing rows -/

@[simp] theorem copies_modifyRow (s : Store) (id : WalletId) (f : Row → Row) (a : Agent) :
    (s.modifyRow id f).copies a = s.copies a := rfl

theorem get?_modifyRow (s : Store) (id x : WalletId) (f : Row → Row) :
    (s.modifyRow id f).rows.get? x = if id = x then (s.rows.get? x).map f else s.rows.get? x :=
  Table.get?_modify s.rows id x f

theorem wallet?_modifyRow {f : Row → Row} (hKeeps : ∀ row, (f row).committed = row.committed)
    (s : Store) (id x : WalletId) : (s.modifyRow id f).wallet? x = s.wallet? x := by
  unfold wallet?
  rw [get?_modifyRow]
  split
  · cases s.rows.get? x with
    | none => rfl
    | some row => simp [hKeeps]
  · rfl

theorem fst_release (s : Store) (id : WalletId) :
    (s.release id).1 = s.modifyRow id Row.released := by
  unfold release
  cases hRow : s.rows.get? id with
  | none => simp [modifyRow, Table.modify, hRow]
  | some row => rfl

theorem transactions_releaseAll (s : Store) (ids : List WalletId) :
    (s.releaseAll ids).1.transactions = s.transactions := by
  induction ids generalizing s with
  | nil => rfl
  | cons id ids ih =>
    show ((s.release id).1.releaseAll ids).1.transactions = s.transactions
    rw [ih, fst_release]
    rfl

theorem get?_releaseAll {ids : List WalletId} (hNodup : ids.Nodup) (s : Store) (x : WalletId) :
    (s.releaseAll ids).1.rows.get? x =
      if x ∈ ids then (s.rows.get? x).map Row.released else s.rows.get? x := by
  induction ids generalizing s with
  | nil => simp [releaseAll]
  | cons id ids ih =>
    obtain ⟨hNotMem, hRest⟩ := List.nodup_cons.mp hNodup
    show ((s.release id).1.releaseAll ids).1.rows.get? x = _
    rw [ih hRest, fst_release, get?_modifyRow]
    by_cases hx : id = x
    · subst hx
      simp [hNotMem]
    · simp [hx, Ne.symm hx]

/-- Publishing wallets of different ids gives each row its own. -/
theorem get?_foldl_publish {ws : List Wallet} (hNodup : (ws.map Wallet.id).Nodup) (s : Store)
    (x : WalletId) :
    (ws.foldl publish s).rows.get? x =
      match ws.find? (·.id = x) with
      | some w => (s.rows.get? x).map fun row => { row with committed := w }
      | none => s.rows.get? x := by
  induction ws generalizing s with
  | nil => rfl
  | cons w ws ih =>
    rw [List.map_cons, List.nodup_cons] at hNodup
    rw [List.foldl_cons, ih hNodup.2, publish, get?_modifyRow]
    by_cases hx : w.id = x
    · -- the ids differ, so none of the later wallets goes to this row
      have hLater : ws.find? (·.id = x) = none := by
        rw [List.find?_eq_none]
        intro v hv hvx
        exact hNodup.1 (List.mem_map.mpr ⟨v, hv, by simpa [hx] using hvx⟩)
      simp [hLater, hx]
    · simp [hx]

theorem transactions_foldl_publish (ws : List Wallet) (s : Store) :
    (ws.foldl publish s).transactions = s.transactions := by
  induction ws generalizing s with
  | nil => rfl
  | cons w ws ih => exact (ih (s.publish w)).trans rfl

/-! ## Changing transactions -/

theorem copies_put (s : Store) (a b : Agent) (t : Transaction) :
    ({ s with transactions := s.transactions.put a t } : Store).copies b =
      if a = b then t else s.copies b := by
  unfold copies
  rw [Table.get?_put]
  split <;> rfl

theorem copies_checkOut (s : Store) (a b : Agent) (w : Wallet) :
    (s.checkOut a w).copies b = if a = b then s.copies a ++ [w] else s.copies b :=
  copies_put s a b _

theorem copies_revise (s : Store) (a b : Agent) (w : Wallet) :
    (s.revise a w).copies b =
      if a = b then (s.copies a).map (fun c => if c.id = w.id then w else c) else s.copies b :=
  copies_put s a b _

theorem copies_begin (s : Store) (a b : Agent) :
    (s.begin a).copies b = if a = b then [] else s.copies b :=
  copies_put s a b _

theorem copies_congr {s s' : Store} (h : s'.transactions = s.transactions) (a : Agent) :
    s'.copies a = s.copies a := by
  unfold copies
  rw [h]

/-- Revising a copy keeps the ids of all copies. -/
theorem locked_revise (s : Store) (a b : Agent) (w : Wallet) :
    (s.revise a w).locked b = s.locked b := by
  unfold locked
  rw [copies_revise]
  split
  · next hab =>
    subst hab
    rw [List.map_map]
    apply List.map_congr_left
    intro c _
    by_cases hc : c.id = w.id
    · simp [hc]
    · simp [hc]
  · rfl

/-! ## Ending a transaction -/

theorem copies_drop (s : Store) (a b : Agent) :
    (s.drop a).1.copies b = if a = b then [] else s.copies b := by
  unfold copies drop
  rw [transactions_releaseAll, Table.get?_erase]
  by_cases hab : a = b
  · simp [hab]
  · simp [hab, Ne.symm hab]

theorem get?_drop (hNodup : (s.locked a).Nodup) (x : WalletId) :
    (s.drop a).1.rows.get? x =
      if x ∈ s.locked a then (s.rows.get? x).map Row.released else s.rows.get? x :=
  get?_releaseAll hNodup _ x

theorem wallet?_drop (hNodup : (s.locked a).Nodup) (x : WalletId) :
    (s.drop a).1.wallet? x = s.wallet? x := by
  unfold wallet?
  rw [get?_drop hNodup]
  split
  · cases s.rows.get? x <;> simp
  · rfl

theorem copies_commit (s : Store) (a b : Agent) :
    (s.commit a).1.copies b = if a = b then [] else s.copies b := by
  unfold commit
  rw [copies_drop, copies_congr (transactions_foldl_publish _ s)]

/-- A commit publishes the copy of every row that the transaction has locked, and lets go of it. -/
theorem get?_commit (hNodup : (s.locked a).Nodup) (x : WalletId) :
    (s.commit a).1.rows.get? x = if x ∈ s.locked a
      then (s.rows.get? x).map fun row =>
        ({ row with committed := (s.copy? a x).getD row.committed } : Row).released
      else s.rows.get? x := by
  have hLocked : ((s.copies a).foldl publish s).locked a = s.locked a := by
    unfold locked
    rw [copies_congr (transactions_foldl_publish _ s)]
  unfold commit
  rw [get?_drop (by rw [hLocked]; exact hNodup), hLocked, get?_foldl_publish hNodup]
  show (if x ∈ s.locked a then Option.map _ (match s.copy? a x with | some w => _ | none => _)
    else match s.copy? a x with | some w => _ | none => _) = _
  cases hCopy : s.copy? a x with
  | none => rw [if_neg (copy?_eq_none_iff.mp hCopy), if_neg (copy?_eq_none_iff.mp hCopy)]
  | some w =>
    rw [if_pos (mem_locked_of_copy? hCopy), if_pos (mem_locked_of_copy? hCopy), Option.map_map]
    rfl

theorem wallet?_commit (hNodup : (s.locked a).Nodup) (x : WalletId) :
    (s.commit a).1.wallet? x =
      match s.copy? a x with
      | some w => (s.wallet? x).map fun _ => w
      | none => s.wallet? x := by
  unfold wallet?
  rw [get?_commit hNodup]
  cases hCopy : s.copy? a x with
  | none => rw [if_neg (copy?_eq_none_iff.mp hCopy)]
  | some w =>
    rw [if_pos (mem_locked_of_copy? hCopy)]
    cases s.rows.get? x <;> simp

/-! ## Storing a new wallet -/

/-- A wallet is stored under an id that no row had before. -/
theorem insert_eq_ok {s s' : Store} (hInsert : s.insert w = .ok s') :
    s.rows.get? w.id = none ∧
      (∀ x, s'.rows.get? x = if w.id = x then some (Row.free w) else s.rows.get? x) ∧
      s'.transactions = s.transactions := by
  unfold insert at hInsert
  split at hInsert
  · simp at hInsert
  · next hNew =>
    obtain rfl : { s with rows := s.rows.put w.id (Row.free w) } = s' := by simpa using hInsert
    exact ⟨by simpa [Table.contains] using hNew,
      fun x => Table.get?_put s.rows w.id x (Row.free w), rfl⟩

/-- Wallets are stored under their own ids, if they were before. -/
theorem keyed_insert {s s' : Store} (hInsert : s.insert w = .ok s')
    (hKeyed : ∀ {x v}, s.wallet? x = some v → v.id = x) {x : WalletId} {v : Wallet}
    (hWallet : s'.wallet? x = some v) : v.id = x := by
  obtain ⟨-, hGet, -⟩ := insert_eq_ok hInsert
  obtain ⟨row, hRow, rfl⟩ := exists_row_of_wallet? hWallet
  rw [hGet] at hRow
  split at hRow
  · next hx =>
    obtain rfl : Row.free w = row := by simpa using hRow
    exact hx
  · exact hKeyed (wallet?_of_get? hRow)

theorem line_insert {s s' : Store} (hInsert : s.insert w = .ok s') (x : WalletId) :
    s'.line x = s.line x := by
  obtain ⟨hNone, hGet, -⟩ := insert_eq_ok hInsert
  unfold line
  rw [hGet]
  split
  · next hx =>
    subst hx
    simp [hNone]
  · rfl

end Purse.Store
