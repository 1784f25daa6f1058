import Mathlib.Logic.Function.Basic
import Mathlib.Logic.Relation
import Purse.Proofs.Store.Coherence
import Purse.Proofs.Wallet.Adjust

/-!
# Moves

All that an agent does to a store is made of a few moves, each of which says when it can be made:
come for a row, check its wallet out, let go of it, and so on. What holds of the store for as long
as agents make moves is proved here once for each move, and the calls of the ledger need only be
taken apart into moves.

## Results

* `Moves.coherent`: moves keep a store coherent.
* `Moves.beside`: moves leave the others in every line, in their order.
* `Moves.copies_eq`: another agent's working copies stay.
* `Move.wallet?_eq_or`: only a `loud` move changes a committed wallet, and only one whose row nobody
  else holds.
-/

namespace Purse.Store

/-- What an agent can do to a store, with the row that it waits for before and after. The committed
wallets are changed by `loud` moves only. -/
inductive Move (a : Agent) (loud : Bool) : Option WalletId × Store → Option WalletId × Store → Prop
    where
  /-- Comes for a row that it has no copy of. -/
  | enter {s id row} (hRow : s.rows.get? id = some row) (hNew : id ∉ s.locked a) :
      Move a loud (none, s) (some id, s.modifyRow id (·.entered a))
  /-- Checks out the wallet of the row it has been given. -/
  | checkOut {s id row} (hRow : s.rows.get? id = some row) (hHolder : row.holder = some a) :
      Move a loud (some id, s) (none, s.checkOut a row.committed)
  /-- Lets go of the row it has been given. -/
  | letGo {s id} (hHolder : s.holder? id = some a) :
      Move a loud (some id, s) (none, (s.release id).1)
  /-- Gives up its place in the queue of a row. -/
  | leave {s id} (hHolder : s.holder? id ≠ some a) :
      Move a loud (some id, s) (none, s.modifyRow id (·.left a))
  /-- Adjusts a working copy. -/
  | revise {s id w w' amount now} (hCopy : s.copy? a id = some w)
      (hAdjust : w.adjust amount now = .ok w') : Move a loud (none, s) (none, s.revise a w')
  /-- Adjusts the wallet of the row it has been given. -/
  | publish {s id w w' amount now} (hLoud : loud = true) (hHolder : s.holder? id = some a)
      (hWallet : s.wallet? id = some w) (hAdjust : w.adjust amount now = .ok w') :
      Move a loud (some id, s) (some id, s.publish w')
  /-- Opens a transaction. -/
  | begin {s} (hNone : s.copies a = []) : Move a loud (none, s) (none, s.begin a)
  /-- Ends its transaction with nothing published. -/
  | drop {s} : Move a loud (none, s) (none, (s.drop a).1)
  /-- Ends its transaction and publishes the copies. -/
  | commit {s} (hLoud : loud = true) : Move a loud (none, s) (none, (s.commit a).1)
  /-- Stores a new wallet. -/
  | insert {s s' w} (hLoud : loud = true) (hInsert : s.insert w = .ok s') :
      Move a loud (none, s) (none, s')
  /-- Changes neither rows nor transactions. -/
  | aside {p : Option WalletId} {s s' : Store} (hRows : s'.rows = s.rows)
      (hTransactions : s'.transactions = s.transactions) : Move a loud (p, s) (p, s')

/-- One move after another. -/
abbrev Moves (a : Agent) (loud : Bool) := Relation.ReflTransGen (Move a loud)

variable {pending : Agent → Option WalletId} {s s' : Store} {a b : Agent} {loud : Bool}
  {id : WalletId} {row : Row} {w w' : Wallet}

/-! ## Moves keep a store coherent -/

namespace Coherent

theorem enter (hCoh : Coherent pending s) (hIdle : pending a = none)
    (hRow : s.rows.get? id = some row) (hNew : id ∉ s.locked a) :
    Coherent (Function.update pending a (some id)) (s.modifyRow id (·.entered a)) where
  sound := by
    intro x r hGet
    rw [get?_modifyRow] at hGet
    split at hGet
    · next hx =>
      subst hx
      rw [hRow] at hGet
      obtain rfl : row.entered a = r := by simpa using hGet
      refine Row.sound_entered (hCoh.sound hRow) ?_
      rw [← line_of_get? hRow]
      exact hCoh.not_mem_line hIdle hNew
    · exact hCoh.sound hGet
  keyed := by
    intro x w hWallet
    rw [wallet?_modifyRow fun _ => Row.committed_entered] at hWallet
    exact hCoh.keyed hWallet
  stands := by
    intro x b
    have hOld : b ∈ s.line x ↔ x ∈ s.locked b ∨ pending b = some x := hCoh.stands
    rw [line_enter hRow (hCoh.sound hRow)]
    show _ ↔ x ∈ s.locked b ∨ _
    by_cases hb : b = a
    · -- the newcomer waited for nothing before
      subst hb
      rw [hIdle] at hOld
      by_cases hx : id = x <;> simp [hx, hOld]
    · rw [Function.update_of_ne hb]
      by_cases hx : id = x <;> simp [hx, hb, hOld]
  held := by
    intro x b hMem
    have hFront := hCoh.held hMem
    rw [line_enter hRow (hCoh.sound hRow)]
    split
    · simp [List.head?_append, hFront]
    · exact hFront
  apart := by
    intro x b hPending
    by_cases hb : b = a
    · subst hb
      obtain rfl : id = x := by simpa using hPending
      exact hNew
    · rw [Function.update_of_ne hb] at hPending
      exact hCoh.apart hPending
  nodup := hCoh.nodup

theorem checkOut (hCoh : Coherent pending s) (hPending : pending a = some id)
    (hRow : s.rows.get? id = some row) (hHolder : row.holder = some a) :
    Coherent (Function.update pending a none) (s.checkOut a row.committed) := by
  have hKey : row.committed.id = id := hCoh.keyed (wallet?_of_get? hRow)
  have hLocked : ∀ b, (s.checkOut a row.committed).locked b =
      if a = b then s.locked a ++ [id] else s.locked b := by
    intro b
    unfold locked
    rw [copies_checkOut]
    split <;> simp [hKey]
  refine ⟨hCoh.sound, hCoh.keyed, ?_, ?_, ?_, ?_⟩
  · -- stands: the row it waited for is now one that it has a copy of
    intro x b
    have hOld : b ∈ s.line x ↔ x ∈ s.locked b ∨ pending b = some x := hCoh.stands
    show b ∈ s.line x ↔ _
    rw [hLocked]
    by_cases hb : b = a
    · subst hb
      rw [hPending] at hOld
      simp [hOld, eq_comm]
    · rw [Function.update_of_ne hb, if_neg (Ne.symm hb)]
      exact hOld
  · -- held: it has been given the new row, so it is in front there
    intro x b hMem
    show (s.line x).head? = some b
    rw [hLocked] at hMem
    split at hMem
    · next hb =>
      subst hb
      rcases List.mem_append.mp hMem with hOld | hNew
      · exact hCoh.held hOld
      · obtain rfl : x = id := by simpa using hNew
        rw [← hCoh.holder?_eq_head?, holder?_of_get? hRow, hHolder]
    · exact hCoh.held hMem
  · -- apart: it waits for nothing any more
    intro x b hStill
    by_cases hb : b = a
    · subst hb
      simp at hStill
    · rw [Function.update_of_ne hb] at hStill
      rw [hLocked, if_neg (Ne.symm hb)]
      exact hCoh.apart hStill
  · -- nodup: it had no copy of the row it waited for
    intro b
    rw [hLocked]
    split
    · have hNew : id ∉ s.locked a := hCoh.apart hPending
      exact List.nodup_append.mpr ⟨hCoh.nodup, by simp, by
        rintro y hy z hz rfl
        exact hNew (List.mem_singleton.mp hz ▸ hy)⟩
    · exact hCoh.nodup

/-- An agent that stops waiting steps out of some lines, and gives up the copies of their rows. -/
theorem stepOut (hCoh : Coherent pending s) (gone : WalletId → Prop) [DecidablePred gone]
    (hSound : ∀ {x r}, s'.rows.get? x = some r → r.Sound)
    (hKeyed : ∀ {x w}, s'.wallet? x = some w → w.id = x)
    (hLine : ∀ x, s'.line x = if gone x then (s.line x).filter (· ≠ a) else s.line x)
    (hOthers : ∀ {b}, b ≠ a → s'.locked b = s.locked b)
    (hMine : ∀ x, x ∈ s'.locked a ↔ x ∈ s.locked a ∧ ¬ gone x)
    (hNodup : (s'.locked a).Nodup) (hPending : ∀ x, pending a = some x → gone x) :
    Coherent (Function.update pending a none) s' := by
  refine ⟨hSound, hKeyed, ?_, ?_, ?_, ?_⟩
  · -- stands
    intro x b
    have hOld : b ∈ s.line x ↔ x ∈ s.locked b ∨ pending b = some x := hCoh.stands
    rw [hLine]
    by_cases hb : b = a
    · subst hb
      rw [hMine]
      by_cases hGone : gone x
      · simp [hGone]
      · -- a line that it does not leave is none that it waited in
        have hNot : pending b ≠ some x := fun h => hGone (hPending x h)
        simp [hGone, hOld, hNot]
    · rw [Function.update_of_ne hb, hOthers hb, ← hOld]
      by_cases hGone : gone x <;> simp [hGone, hb]
  · -- held: to others the agent does not matter, as they are in front
    intro x b hMem
    rw [hLine]
    by_cases hb : b = a
    · subst hb
      obtain ⟨hMem, hStays⟩ := (hMine x).mp hMem
      rw [if_neg hStays]
      exact hCoh.held hMem
    · rw [hOthers hb] at hMem
      exact (Beside.of_ite a (s.line x)).head? hb (hCoh.held hMem)
  · -- apart
    intro x b hStill
    by_cases hb : b = a
    · subst hb
      simp at hStill
    · rw [Function.update_of_ne hb] at hStill
      rw [hOthers hb]
      exact hCoh.apart hStill
  · -- nodup
    intro b
    by_cases hb : b = a
    · subst hb
      exact hNodup
    · rw [hOthers hb]
      exact hCoh.nodup

/-- Taking the front of a line away is stepping out of it. -/
theorem tail_line (hCoh : Coherent pending s) (hHolder : s.holder? id = some a) :
    (s.line id).tail = (s.line id).filter (· ≠ a) := by
  obtain ⟨rest, hLine, hNot⟩ := hCoh.line_of_holder? hHolder
  rw [hLine, List.tail_cons, List.filter_cons_of_neg (by simp), filter_ne_of_not_mem hNot]

theorem letGo (hCoh : Coherent pending s) (hPending : pending a = some id)
    (hHolder : s.holder? id = some a) :
    Coherent (Function.update pending a none) (s.release id).1 := by
  have hLocked : ∀ b, (s.release id).1.locked b = s.locked b := by
    intro b
    rw [fst_release]
    rfl
  -- it steps out of one line, and had no copy of its row
  refine hCoh.stepOut (id = ·) ?_ ?_ ?_ (fun _ => hLocked _) ?_ ?_ ?_
  · intro x r hGet
    rw [fst_release, get?_modifyRow] at hGet
    split at hGet
    · next hx =>
      subst hx
      obtain ⟨row, hRow, hFront⟩ := exists_row_of_holder? hHolder
      rw [hRow] at hGet
      obtain rfl : row.released = r := by simpa using hGet
      exact Row.sound_released (hCoh.sound hRow) hFront
    · exact hCoh.sound hGet
  · intro x w hWallet
    rw [fst_release, wallet?_modifyRow fun _ => Row.committed_released] at hWallet
    exact hCoh.keyed hWallet
  · intro x
    rw [line_release hHolder]
    split
    · next hx =>
      subst hx
      exact hCoh.tail_line hHolder
    · rfl
  · intro x
    rw [hLocked]
    refine ⟨fun hMem => ⟨hMem, ?_⟩, fun h => h.1⟩
    rintro rfl
    exact hCoh.apart hPending hMem
  · rw [hLocked]
    exact hCoh.nodup
  · intro x hx
    exact Option.some.inj (hPending.symm.trans hx)

theorem leave (hCoh : Coherent pending s) (hPending : pending a = some id)
    (hHolder : s.holder? id ≠ some a) :
    Coherent (Function.update pending a none) (s.modifyRow id (·.left a)) := by
  refine hCoh.stepOut (id = ·) ?_ ?_ (line_leave hHolder) (fun _ => rfl) ?_ hCoh.nodup ?_
  · intro x r hGet
    rw [get?_modifyRow] at hGet
    split at hGet
    · next hx =>
      subst hx
      obtain ⟨row, hRow⟩ := hCoh.exists_row_of_pending hPending
      rw [holder?_of_get? hRow] at hHolder
      rw [hRow] at hGet
      obtain rfl : row.left a = r := by simpa using hGet
      exact Row.sound_left (hCoh.sound hRow) hHolder
    · exact hCoh.sound hGet
  · intro x w hWallet
    rw [wallet?_modifyRow fun _ => Row.committed_left] at hWallet
    exact hCoh.keyed hWallet
  · intro x
    show x ∈ s.locked a ↔ _
    refine ⟨fun hMem => ⟨hMem, ?_⟩, fun h => h.1⟩
    rintro rfl
    exact hCoh.apart hPending hMem
  · intro x hx
    exact Option.some.inj (hPending.symm.trans hx)

/-- A transaction that ends steps out of the lines of its rows, whatever it publishes in them. -/
theorem line_close (hCoh : Coherent pending s) (publish : WalletId → Row → Wallet)
    (hGet : ∀ x, s'.rows.get? x = if x ∈ s.locked a
      then (s.rows.get? x).map fun r => ({ r with committed := publish x r } : Row).released
      else s.rows.get? x) (x : WalletId) :
    s'.line x = if x ∈ s.locked a then (s.line x).filter (· ≠ a) else s.line x := by
  unfold line
  rw [hGet]
  split
  · next hMem =>
    obtain ⟨row, hRow, hHolder⟩ := exists_row_of_holder? (hCoh.holder?_of_locked hMem)
    have hTail := hCoh.tail_line (hCoh.holder?_of_locked hMem)
    rw [line_of_get? hRow, Row.line_of_holder hHolder] at hTail
    rw [hRow, Option.map_map]
    show Row.line _ = (Row.line row).filter _
    rw [Row.line_of_holder hHolder, ← hTail]
    exact Row.line_released
  · rfl

/-- A transaction ends: its rows are let go of, with whatever is published in them. -/
theorem close (hCoh : Coherent pending s) (publish : WalletId → Row → Wallet)
    (hIdle : pending a = none)
    (hGet : ∀ x, s'.rows.get? x = if x ∈ s.locked a
      then (s.rows.get? x).map fun r => ({ r with committed := publish x r } : Row).released
      else s.rows.get? x)
    (hKeyed : ∀ {x w}, s'.wallet? x = some w → w.id = x)
    (hCopies : ∀ b, s'.copies b = if a = b then [] else s.copies b) :
    Coherent (Function.update pending a none) s' := by
  have hMine : s'.locked a = [] := by
    unfold locked
    rw [hCopies, if_pos rfl]
    rfl
  -- it steps out of the lines of all its copies
  refine hCoh.stepOut (· ∈ s.locked a) ?_ hKeyed (hCoh.line_close publish hGet) ?_ ?_ ?_ ?_
  · -- what is published in a row does not matter to its line
    intro x r hSome
    rw [hGet] at hSome
    split at hSome
    · next hMem =>
      obtain ⟨row, hRow, hHolder⟩ := exists_row_of_holder? (hCoh.holder?_of_locked hMem)
      rw [hRow] at hSome
      obtain rfl : ({ row with committed := publish x row } : Row).released = r := by
        simpa using hSome
      exact Row.sound_released ⟨(hCoh.sound hRow).nodup, (hCoh.sound hRow).idle⟩ hHolder
    · exact hCoh.sound hSome
  · intro b hb
    unfold locked
    rw [hCopies, if_neg (Ne.symm hb)]
  · intro x
    simp [hMine]
  · simp [hMine]
  · intro x hx
    simp [hIdle] at hx

theorem drop (hCoh : Coherent pending s) (hIdle : pending a = none) :
    Coherent (Function.update pending a none) (s.drop a).1 := by
  refine hCoh.close (fun _ r => r.committed) hIdle (get?_drop hCoh.nodup) ?_
    (copies_drop s a)
  intro x w hWallet
  rw [wallet?_drop hCoh.nodup] at hWallet
  exact hCoh.keyed hWallet

theorem commit (hCoh : Coherent pending s) (hIdle : pending a = none) :
    Coherent (Function.update pending a none) (s.commit a).1 := by
  refine hCoh.close _ hIdle (get?_commit hCoh.nodup) ?_ (copies_commit s a)
  intro x w hWallet
  rw [wallet?_commit hCoh.nodup] at hWallet
  -- a published copy has the id that it was looked up by
  cases hCopy : s.copy? a x with
  | none =>
    rw [hCopy] at hWallet
    exact hCoh.keyed hWallet
  | some v =>
    rw [hCopy] at hWallet
    obtain ⟨_, -, rfl⟩ := Option.map_eq_some_iff.mp hWallet
    exact id_of_copy? hCopy

/-- Nothing is lost by a change that keeps all lines and the ids of all copies. -/
theorem of_lines (hCoh : Coherent pending s) (hSound : ∀ {x r}, s'.rows.get? x = some r → r.Sound)
    (hKeyed : ∀ {x w}, s'.wallet? x = some w → w.id = x) (hLine : ∀ x, s'.line x = s.line x)
    (hLocked : ∀ b, s'.locked b = s.locked b) : Coherent pending s' where
  sound := hSound
  keyed := hKeyed
  stands := by
    intro x b
    rw [hLine, hLocked]
    exact hCoh.stands
  held := by
    intro x b
    rw [hLine, hLocked]
    exact hCoh.held
  apart := by
    intro x b
    rw [hLocked]
    exact hCoh.apart
  nodup := by
    intro b
    rw [hLocked]
    exact hCoh.nodup

theorem publish (hCoh : Coherent pending s) (w : Wallet) : Coherent pending (s.publish w) := by
  refine hCoh.of_lines ?_ ?_ ?_ (fun _ => rfl)
  · intro x r hGet
    rw [Store.publish, get?_modifyRow] at hGet
    split at hGet
    · obtain ⟨row, hRow, rfl⟩ := Option.map_eq_some_iff.mp hGet
      exact ⟨(hCoh.sound hRow).nodup, (hCoh.sound hRow).idle⟩
    · exact hCoh.sound hGet
  · intro x v hWallet
    obtain ⟨row, hRow, rfl⟩ := exists_row_of_wallet? hWallet
    rw [Store.publish, get?_modifyRow] at hRow
    split at hRow
    · next hx =>
      obtain ⟨_, -, rfl⟩ := Option.map_eq_some_iff.mp hRow
      exact hx
    · exact hCoh.keyed (wallet?_of_get? hRow)
  · intro x
    rw [Store.publish, line_modifyRow]
    split
    · rfl
    · rfl

theorem begin (hCoh : Coherent pending s) (hNone : s.copies a = []) :
    Coherent pending (s.begin a) := by
  refine hCoh.of_lines hCoh.sound hCoh.keyed (fun _ => rfl) ?_
  intro b
  unfold locked
  rw [copies_begin]
  split
  · next hb => rw [← hb, hNone]
  · rfl

theorem insert (hCoh : Coherent pending s) (hInsert : s.insert w = .ok s') :
    Coherent pending s' := by
  have hLine := line_insert hInsert
  obtain ⟨-, hGet, hTransactions⟩ := insert_eq_ok hInsert
  refine hCoh.of_lines ?_ (keyed_insert hInsert hCoh.keyed) hLine ?_
  · intro x r hSome
    rw [hGet] at hSome
    split at hSome
    · obtain rfl : Row.free w = r := by simpa using hSome
      exact Row.sound_free w
    · exact hCoh.sound hSome
  · intro b
    unfold locked
    rw [copies_congr hTransactions]

end Coherent

/-- A move keeps the store coherent. -/
theorem Move.coherent {c c' : Option WalletId × Store} (hMove : Move a loud c c')
    (hCoh : Coherent pending c.2) (hPending : pending a = c.1) :
    Coherent (Function.update pending a c'.1) c'.2 := by
  -- moves that do not wait leave the rows that are waited for as they are
  have hSame : pending a = none → Function.update pending a none = pending := by
    intro hIdle
    rw [← hIdle]
    exact Function.update_eq_self a pending
  cases hMove with
  | enter hRow hNew => exact hCoh.enter hPending hRow hNew
  | checkOut hRow hHolder => exact hCoh.checkOut hPending hRow hHolder
  | letGo hHolder => exact hCoh.letGo hPending hHolder
  | leave hHolder => exact hCoh.leave hPending hHolder
  | drop => exact hCoh.drop hPending
  | commit => exact hCoh.commit hPending
  | revise hCopy hAdjust =>
    rw [hSame hPending]
    exact hCoh.of_lines hCoh.sound hCoh.keyed (fun _ => rfl) fun _ => locked_revise _ _ _ _
  | publish hLoud hHolder hWallet hAdjust =>
    rw [← hPending, Function.update_eq_self]
    exact hCoh.publish _
  | begin hNone =>
    rw [hSame hPending]
    exact hCoh.begin hNone
  | insert hLoud hInsert =>
    rw [hSame hPending]
    exact hCoh.insert hInsert
  | aside hRows hTransactions =>
    rw [← hPending, Function.update_eq_self]
    refine hCoh.of_lines ?_ ?_ (line_of_rows hRows) ?_
    · rw [hRows]
      exact hCoh.sound
    · unfold wallet?
      rw [hRows]
      exact hCoh.keyed
    · intro b
      unfold locked
      rw [copies_congr hTransactions]

/-! ## What moves leave alone -/

/-- A move leaves the others in every line, in their order. -/
theorem Move.beside {c c' : Option WalletId × Store} (hMove : Move a loud c c')
    (hCoh : Coherent pending c.2) (hPending : pending a = c.1) (x : WalletId) :
    Beside a (c.2.line x) (c'.2.line x) := by
  cases hMove with
  | enter hRow hNew =>
    rw [line_enter hRow (hCoh.sound hRow)]
    split
    · next hx =>
      subst hx
      exact Beside.of_append (hCoh.not_mem_line hPending hNew)
    · exact Beside.refl a _
  | @letGo s id hHolder =>
    have hLine : (s.release id).1.line x =
        if id = x then (s.line x).filter (· ≠ a) else s.line x := by
      rw [line_release hHolder]
      split
      · next hx =>
        subst hx
        exact hCoh.tail_line hHolder
      · rfl
    rw [hLine]
    exact .of_ite a _
  | leave hHolder =>
    rw [line_leave hHolder]
    exact .of_ite a _
  | drop =>
    rw [hCoh.line_close (fun _ r => r.committed) (get?_drop hCoh.nodup)]
    exact .of_ite a _
  | commit =>
    rw [hCoh.line_close _ (get?_commit hCoh.nodup)]
    exact .of_ite a _
  | @publish s id w w' _ _ hLoud hHolder hWallet hAdjust =>
    have hLine : (s.publish w').line x = s.line x := by
      rw [Store.publish, line_modifyRow]
      split <;> rfl
    rw [hLine]
    exact Beside.refl a _
  | @insert s s' w hLoud hInsert =>
    have hLine : s'.line x = s.line x := line_insert hInsert x
    rw [hLine]
    exact Beside.refl a _
  | aside hRows hTransactions =>
    rw [line_of_rows hRows]
    exact Beside.refl a _
  | checkOut | revise | begin => exact Beside.refl a _

/-- A move leaves the working copies of the others alone. -/
theorem Move.copies_eq {c c' : Option WalletId × Store} (hMove : Move a loud c c') (hb : b ≠ a) :
    c'.2.copies b = c.2.copies b := by
  have hNe : a ≠ b := Ne.symm hb
  cases hMove with
  | enter | leave | publish => rfl
  | checkOut => rw [copies_checkOut, if_neg hNe]
  | revise => rw [copies_revise, if_neg hNe]
  | begin => rw [copies_begin, if_neg hNe]
  | drop => rw [copies_drop, if_neg hNe]
  | commit => rw [copies_commit, if_neg hNe]
  | letGo => rw [fst_release]; rfl
  | insert hLoud hInsert => exact copies_congr (insert_eq_ok hInsert).2.2 b
  | aside hRows hTransactions => exact copies_congr hTransactions b

theorem wallet?_publish (s : Store) (w : Wallet) (x : WalletId) :
    (s.publish w).wallet? x = if w.id = x then (s.wallet? x).map fun _ => w else s.wallet? x := by
  unfold wallet? publish
  rw [get?_modifyRow]
  split
  · rw [Option.map_map, Option.map_map]
    rfl
  · rfl

theorem id_of_adjust {amount : Decimal} {now : Timestamp} (hAdjust : w.adjust amount now = .ok w') :
    w'.id = w.id := by
  obtain ⟨-, -, -, hNew⟩ := Wallet.adjust_ok hAdjust
  rw [hNew]

/-- A move changes a committed wallet only if it is loud, and nobody else holds the wallet's row. -/
theorem Move.wallet?_eq_or {c c' : Option WalletId × Store} (hMove : Move a loud c c')
    (hCoh : Coherent pending c.2) (x : WalletId) : c'.2.wallet? x = c.2.wallet? x ∨
      loud = true ∧ (c.2.holder? x = some a ∨ c.2.holder? x = none) := by
  cases hMove with
  | enter => exact Or.inl (wallet?_modifyRow (fun _ => Row.committed_entered) _ _ x)
  | leave => exact Or.inl (wallet?_modifyRow (fun _ => Row.committed_left) _ _ x)
  | letGo =>
    rw [fst_release]
    exact Or.inl (wallet?_modifyRow (fun _ => Row.committed_released) _ _ x)
  | checkOut | revise | begin => exact Or.inl rfl
  | drop => exact Or.inl (wallet?_drop hCoh.nodup x)
  | commit hLoud =>
    -- a row of which it has a copy is its own
    rw [wallet?_commit hCoh.nodup]
    split
    · next w hCopy =>
      exact Or.inr ⟨hLoud, Or.inl (hCoh.holder?_of_locked (mem_locked_of_copy? hCopy))⟩
    · exact Or.inl rfl
  | publish hLoud hMine hWallet hAdjust =>
    rw [wallet?_publish, id_of_adjust hAdjust, hCoh.keyed hWallet]
    split
    · next hx =>
      subst hx
      exact Or.inr ⟨hLoud, Or.inl hMine⟩
    · exact Or.inl rfl
  | @insert s s' w hLoud hInsert =>
    -- a new wallet is stored where there was no row
    obtain ⟨hNone, hGet, -⟩ := insert_eq_ok hInsert
    by_cases hx : w.id = x
    · subst hx
      refine Or.inr ⟨hLoud, Or.inr ?_⟩
      show (s.rows.get? w.id).bind Row.holder = none
      rw [hNone]
      rfl
    · refine Or.inl ?_
      unfold wallet?
      rw [hGet, if_neg hx]
  | aside hRows hTransactions =>
    refine Or.inl ?_
    unfold wallet?
    rw [hRows]

/-- A move changes no wallet whose row somebody else holds. -/
theorem Move.wallet?_of_holder? {c c' : Option WalletId × Store} {x : WalletId}
    (hMove : Move a loud c c') (hCoh : Coherent pending c.2) (hb : b ≠ a)
    (hHolder : c.2.holder? x = some b) : c'.2.wallet? x = c.2.wallet? x := by
  obtain hSame | ⟨-, hMine | hFree⟩ := hMove.wallet?_eq_or hCoh x
  · exact hSame
  · exact absurd (Option.some.inj (hHolder.symm.trans hMine)) hb
  · simp [hHolder] at hFree

/-- A move that is not loud changes no committed wallet. -/
theorem Move.wallet?_eq {c c' : Option WalletId × Store} (hMove : Move a false c c')
    (hCoh : Coherent pending c.2) (x : WalletId) : c'.2.wallet? x = c.2.wallet? x := by
  obtain hSame | ⟨hLoud, -⟩ := hMove.wallet?_eq_or hCoh x
  · exact hSame
  · simp at hLoud

/-! ## Several moves -/

section Moves

variable {c c' : Option WalletId × Store}

theorem Moves.coherent (hMoves : Moves a loud c c') (hCoh : Coherent pending c.2)
    (hPending : pending a = c.1) : Coherent (Function.update pending a c'.1) c'.2 := by
  induction hMoves with
  | refl => rw [← hPending, Function.update_eq_self]; exact hCoh
  | tail _ hMove ih => simpa using hMove.coherent ih (Function.update_self ..)

theorem Moves.beside (hMoves : Moves a loud c c') (hCoh : Coherent pending c.2)
    (hPending : pending a = c.1) (x : WalletId) : Beside a (c.2.line x) (c'.2.line x) := by
  induction hMoves with
  | refl => exact Beside.refl a _
  | tail hMoves hMove ih =>
    exact ih.trans (hMove.beside (Moves.coherent hMoves hCoh hPending) (Function.update_self ..) x)

theorem Moves.copies_eq (hMoves : Moves a loud c c') (hb : b ≠ a) :
    c'.2.copies b = c.2.copies b := by
  induction hMoves with
  | refl => rfl
  | tail _ hMove ih => exact (hMove.copies_eq hb).trans ih

/-- Whoever else holds a row holds it still. -/
theorem Moves.holder?_eq (hMoves : Moves a loud c c') (hCoh : Coherent pending c.2)
    (hPending : pending a = c.1) (hb : b ≠ a) {x : WalletId} (hHolder : c.2.holder? x = some b) :
    c'.2.holder? x = some b := by
  rw [(Moves.coherent hMoves hCoh hPending).holder?_eq_head?]
  rw [hCoh.holder?_eq_head?] at hHolder
  exact (hMoves.beside hCoh hPending x).head? hb hHolder

theorem Moves.wallet?_of_holder? (hMoves : Moves a loud c c') (hCoh : Coherent pending c.2)
    (hPending : pending a = c.1) (hb : b ≠ a) {x : WalletId} (hHolder : c.2.holder? x = some b) :
    c'.2.wallet? x = c.2.wallet? x := by
  induction hMoves with
  | refl => rfl
  | tail hMoves hMove ih =>
    have hStill := Moves.holder?_eq hMoves hCoh hPending hb hHolder
    exact (hMove.wallet?_of_holder? (Moves.coherent hMoves hCoh hPending) hb hStill).trans ih

theorem Moves.wallet?_eq (hMoves : Moves a false c c') (hCoh : Coherent pending c.2)
    (hPending : pending a = c.1) (x : WalletId) : c'.2.wallet? x = c.2.wallet? x := by
  induction hMoves with
  | refl => rfl
  | tail hMoves hMove ih =>
    exact (hMove.wallet?_eq (Moves.coherent hMoves hCoh hPending) x).trans ih

end Moves

end Purse.Store
