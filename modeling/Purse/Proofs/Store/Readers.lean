import Purse.Proofs.Store.Moves
import Purse.Proofs.Store.Total

/-!
# Readers outside transactions

A reader outside of all transactions sees the committed wallets, in the order in which they came in,
and nothing else. What an agent does to rows and copies changes nothing of that before it publishes.

## Results

* `Table.ext_get?`: what a table is known by.
* `wallet?_eq_find?`: the wallet of an id, by the committed wallets.
* `wallet?_insert`, `keys_insert`: the committed wallets after one was stored; `insert_eq_error`: why
  one is not.
* `Moves.wallets_eq`: moves that are not loud leave all committed wallets as they are.
-/

namespace Purse

namespace Table

variable {κ α : Type} [DecidableEq κ]

theorem keys_assign_of_mem {k : κ} {v : α} {es : List (κ × α)} (hMem : k ∈ es.map Prod.fst) :
    (assign k v es).map Prod.fst = es.map Prod.fst := by
  induction es with
  | nil => simp at hMem
  | cons e es ih =>
    unfold assign
    by_cases hHead : e.1 = k
    · rw [if_pos hHead, List.map_cons, List.map_cons, hHead]
    · rw [if_neg hHead, List.map_cons, List.map_cons, ih]
      exact List.mem_of_ne_of_mem (Ne.symm hHead) hMem

theorem assign_of_not_mem {k : κ} {v : α} {es : List (κ × α)} (hNew : k ∉ es.map Prod.fst) :
    assign k v es = es ++ [(k, v)] := by
  induction es with
  | nil => rfl
  | cons e es ih =>
    rw [List.map_cons, List.mem_cons, not_or] at hNew
    unfold assign
    rw [if_neg (Ne.symm hNew.1), ih hNew.2]
    rfl

/-- A new key comes last, with its value. -/
theorem entries_put {t : Table κ α} {k : κ} (hNew : k ∉ t.keys) (v : α) :
    (t.put k v).entries = t.entries ++ [(k, v)] :=
  assign_of_not_mem hNew

theorem keys_put {t : Table κ α} {k : κ} (hNew : k ∉ t.keys) (v : α) :
    (t.put k v).keys = t.keys ++ [k] := by
  rw [keys, entries_put hNew, List.map_append]
  rfl

theorem values_put {t : Table κ α} {k : κ} (hNew : k ∉ t.keys) (v : α) :
    (t.put k v).values = t.values ++ [v] := by
  rw [values, entries_put hNew, List.map_append]
  rfl

theorem keys_put_of_none {t : Table κ α} {k : κ} (hNone : t.get? k = none) (v : α) :
    (t.put k v).keys = t.keys ++ [k] := by
  refine keys_put (fun hMem => ?_) v
  rw [mem_keys_iff, hNone] at hMem
  cases hMem

@[simp] theorem keys_modify (t : Table κ α) (k : κ) (f : α → α) : (t.modify k f).keys = t.keys := by
  unfold modify
  cases hGet : t.get? k with
  | none => rfl
  | some v =>
    have hMem : k ∈ t.keys := mem_keys_iff.mpr (by rw [hGet]; rfl)
    exact keys_assign_of_mem hMem

theorem entries_eq_filterMap (t : Table κ α) :
    t.entries = t.keys.filterMap fun k => (t.get? k).map fun v => (k, v) := by
  unfold keys
  rw [List.filterMap_map]
  refine (List.filterMap_some (l := t.entries)).symm.trans (List.filterMap_congr fun e hMem => ?_)
  have hGet : t.get? e.1 = some e.2 := lookup_of_mem t.nodup hMem
  rw [Function.comp_apply, hGet]
  rfl

/-- A table is known by the order of its keys and by their values. -/
theorem ext_get? {t t' : Table κ α} (hKeys : t'.keys = t.keys) (hGet : ∀ k, t'.get? k = t.get? k) :
    t' = t := by
  have hEntries : t'.entries = t.entries := by
    rw [entries_eq_filterMap, entries_eq_filterMap, hKeys, funext hGet]
  obtain ⟨entries, hNodup⟩ := t
  obtain ⟨entries', hNodup'⟩ := t'
  obtain rfl : entries' = entries := hEntries
  rfl

end Table

namespace Store

variable {s s' : Store} {a : Agent} {id : WalletId} {pending : Agent → Option WalletId}

/-- The committed wallets, by their ids. -/
theorem wallets_eq_filterMap (s : Store) : s.wallets = s.rows.keys.filterMap s.wallet? := by
  unfold wallets Table.values Table.keys
  rw [List.map_map, List.filterMap_map, ← List.filterMap_eq_map]
  refine List.filterMap_congr fun e hMem => ?_
  have hGet : s.rows.get? e.1 = some e.2 := Table.lookup_of_mem s.rows.nodup hMem
  exact (wallet?_of_get? hGet).symm

/-- The wallet of an id, by the committed wallets. -/
theorem wallet?_eq_find? (hKeyed : ∀ {x w}, s.wallet? x = some w → w.id = x) (id : WalletId) :
    s.wallet? id = s.wallets.find? (·.id = id) := by
  have hIds : ∀ e ∈ s.rows.entries, e.2.committed.id = e.1 := fun e hMem =>
    hKeyed (wallet?_of_get? (Table.lookup_of_mem s.rows.nodup hMem))
  unfold wallet? wallets Table.get? Table.values
  generalize s.rows.entries = es at hIds
  induction es with
  | nil => rfl
  | cons e es ih =>
    have hHead := hIds e List.mem_cons_self
    rw [Table.lookup, List.map_cons, List.map_cons, List.find?_cons, hHead]
    by_cases hId : e.1 = id
    · simp [hId]
    · simp only [hId, if_false, decide_false]
      exact ih fun e' hMem => hIds e' (List.mem_cons_of_mem e hMem)

/-- A wallet that is stored was not there before, and is there under its id. -/
theorem wallet?_insert {w : Wallet} (hInsert : s.insert w = .ok s') :
    s.wallet? w.id = none ∧ s'.wallet? = Function.update s.wallet? w.id (some w) := by
  obtain ⟨hNone, hGet, -⟩ := insert_eq_ok hInsert
  refine ⟨?_, funext fun x => ?_⟩
  · unfold wallet?
    rw [hNone]
    rfl
  · unfold wallet?
    rw [hGet, Function.update_apply]
    by_cases hx : w.id = x
    · simp [hx, Row.free]
    · simp [hx, Ne.symm hx]

theorem insert_eq_put {w : Wallet} (hInsert : s.insert w = .ok s') :
    s' = { s with rows := s.rows.put w.id (Row.free w) } := by
  unfold insert at hInsert
  split at hInsert
  · cases hInsert
  · exact (Except.ok.inj hInsert).symm

/-- A new wallet comes last. -/
theorem keys_insert {w : Wallet} (hInsert : s.insert w = .ok s') :
    s'.rows.keys = s.rows.keys ++ [w.id] := by
  rw [insert_eq_put hInsert]
  exact Table.keys_put_of_none (insert_eq_ok hInsert).1 (Row.free w)

theorem armed_insert {w : Wallet} (hInsert : s.insert w = .ok s') : s'.armed = s.armed := by
  rw [insert_eq_put hInsert]

/-- A wallet is refused only if there is one of its id. -/
theorem insert_eq_error {w : Wallet} {e : LedgerError} (hInsert : s.insert w = .error e) :
    e = .alreadyExists ∧ (s.wallet? w.id).isSome = true := by
  unfold insert at hInsert
  split at hInsert
  · next hThere =>
    refine ⟨(Except.error.inj hInsert).symm, ?_⟩
    unfold wallet?
    rw [Option.isSome_map]
    exact hThere
  · cases hInsert

/-! ## Moves that are not loud -/

@[simp] theorem keys_modifyRow (s : Store) (id : WalletId) (f : Row → Row) :
    (s.modifyRow id f).rows.keys = s.rows.keys :=
  Table.keys_modify s.rows id f

theorem keys_releaseAll (ids : List WalletId) (s : Store) :
    (s.releaseAll ids).1.rows.keys = s.rows.keys := by
  induction ids generalizing s with
  | nil => rfl
  | cons id ids ih =>
    show ((s.release id).1.releaseAll ids).1.rows.keys = _
    rw [ih, fst_release, keys_modifyRow]

/-- A move that is not loud stores no wallet. -/
theorem Move.keys_eq {c c' : Option WalletId × Store} (hMove : Move a false c c') :
    c'.2.rows.keys = c.2.rows.keys := by
  cases hMove with
  | enter | leave => exact keys_modifyRow _ _ _
  | letGo => rw [fst_release, keys_modifyRow]
  | drop => exact keys_releaseAll _ _
  | checkOut | revise | begin => rfl
  | aside hRows hTransactions => rw [hRows]
  | publish hLoud | commit hLoud | insert hLoud => simp at hLoud

/-- Moves that are not loud leave all committed wallets as they are, in their order. -/
theorem Moves.wallets_eq {c c' : Option WalletId × Store} (hMoves : Moves a false c c')
    (hCoh : Coherent pending c.2) (hPending : pending a = c.1) : c'.2.wallets = c.2.wallets := by
  have hKeys : c'.2.rows.keys = c.2.rows.keys := by
    induction hMoves with
    | refl => rfl
    | tail hMoves hMove ih => exact hMove.keys_eq.trans ih
  rw [wallets_eq_filterMap, wallets_eq_filterMap, hKeys,
    funext (Moves.wallet?_eq hMoves hCoh hPending)]

end Store

end Purse
