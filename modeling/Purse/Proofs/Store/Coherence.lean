import Purse.Proofs.Store.Lookup

/-!
# Coherence of the store

Locks are kept in three places: the rows know who holds them and who waits, the transactions know
which rows they have copies of, and each agent knows the row it is waiting for, if any. A store in
which the three agree is `Coherent`.

## Results

* `Coherent.line_of_holder?`, `Coherent.holder?_of_locked`: who holds a row, told by its line and by
  the copies.
* `line_enter`, `line_leave`, `line_release`: the lines after one agent came, left or let go.
-/

namespace Purse.Store

/-- The rows, the transactions and the agents that wait agree on who has which lock. -/
structure Coherent (pending : Agent → Option WalletId) (s : Store) : Prop where
  /-- Every row is in order. -/
  sound : ∀ {id row}, s.rows.get? id = some row → row.Sound
  /-- Wallets are kept under their ids. -/
  keyed : ∀ {id w}, s.wallet? id = some w → w.id = id
  /-- An agent stands at the rows it has copies of, and at the one it waits for. -/
  stands : ∀ {id a}, a ∈ s.line id ↔ id ∈ s.locked a ∨ pending a = some id
  /-- An agent stands in front at the rows it has copies of. -/
  held : ∀ {id a}, id ∈ s.locked a → (s.line id).head? = some a
  /-- An agent does not wait for a row it has a copy of. -/
  apart : ∀ {id a}, pending a = some id → id ∉ s.locked a
  /-- A transaction has one copy of a wallet. -/
  nodup : ∀ {a}, (s.locked a).Nodup

variable {pending : Agent → Option WalletId} {s : Store} {a b : Agent} {id : WalletId} {row : Row}

/-! ## What a coherent store tells -/

namespace Coherent

theorem holder?_eq_head? (hCoh : Coherent pending s) (id : WalletId) :
    s.holder? id = (s.line id).head? := by
  unfold holder? line
  cases hRow : s.rows.get? id with
  | none => rfl
  | some row => exact (Row.head?_line (hCoh.sound hRow)).symm

theorem not_mem_line (hCoh : Coherent pending s) (hIdle : pending a = none)
    (hNew : id ∉ s.locked a) : a ∉ s.line id := by
  rw [hCoh.stands, hIdle]
  simp [hNew]

theorem exists_row_of_pending (hCoh : Coherent pending s) (hPending : pending a = some id) :
    ∃ row, s.rows.get? id = some row :=
  exists_row_of_mem_line (hCoh.stands.mpr (Or.inr hPending))

theorem nodup_line (hCoh : Coherent pending s) (id : WalletId) : (s.line id).Nodup := by
  unfold line
  cases hRow : s.rows.get? id with
  | none => exact List.nodup_nil
  | some row => exact (hCoh.sound hRow).nodup

/-- The holder of a row stands in front of the others. -/
theorem line_of_holder? (hCoh : Coherent pending s) (hHolder : s.holder? id = some a) :
    ∃ rest, s.line id = a :: rest ∧ a ∉ rest := by
  rw [hCoh.holder?_eq_head?] at hHolder
  have hNodup := hCoh.nodup_line id
  cases hLine : s.line id with
  | nil => simp [hLine] at hHolder
  | cons b rest =>
    obtain rfl : b = a := by simpa [hLine] using hHolder
    rw [hLine] at hNodup
    exact ⟨rest, rfl, (List.nodup_cons.mp hNodup).1⟩

theorem holder?_of_locked (hCoh : Coherent pending s) (hMem : id ∈ s.locked a) :
    s.holder? id = some a := by
  rw [hCoh.holder?_eq_head?]
  exact hCoh.held hMem

end Coherent

/-! ## Lines after a change -/

theorem line_modifyRow (s : Store) (id x : WalletId) (f : Row → Row) :
    (s.modifyRow id f).line x =
      if id = x then ((s.rows.get? x).map fun row => (f row).line).getD [] else s.line x := by
  unfold line
  rw [get?_modifyRow]
  split
  · rw [Option.map_map]
    rfl
  · rfl

theorem line_enter (hRow : s.rows.get? id = some row) (hSound : row.Sound) (a : Agent)
    (x : WalletId) :
    (s.modifyRow id (·.entered a)).line x = if id = x then s.line x ++ [a] else s.line x := by
  rw [line_modifyRow]
  split
  · next hx =>
    subst hx
    rw [line_of_get? hRow, hRow]
    exact Row.line_entered hSound
  · rfl

theorem line_leave (hHolder : s.holder? id ≠ some a) (x : WalletId) :
    (s.modifyRow id (·.left a)).line x =
      if id = x then (s.line x).filter (· ≠ a) else s.line x := by
  rw [line_modifyRow]
  split
  · next hx =>
    subst hx
    cases hRow : s.rows.get? id with
    | none => simp [line, hRow]
    | some row =>
      rw [line_of_get? hRow]
      rw [holder?_of_get? hRow] at hHolder
      exact Row.line_left hHolder
  · rfl

/-- Letting go of a row takes its holder out of the line. -/
theorem line_release (hHolder : s.holder? id = some a) (x : WalletId) :
    (s.release id).1.line x = if id = x then (s.line x).tail else s.line x := by
  obtain ⟨row, hRow, hFront⟩ := exists_row_of_holder? hHolder
  rw [fst_release, line_modifyRow]
  split
  · next hx =>
    subst hx
    rw [line_of_get? hRow, hRow, Row.line_of_holder hFront]
    exact Row.line_released
  · rfl

theorem line_of_rows {s s' : Store} (hRows : s'.rows = s.rows) (x : WalletId) :
    s'.line x = s.line x := by
  unfold line
  rw [hRows]

end Purse.Store
