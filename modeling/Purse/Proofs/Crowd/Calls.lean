import Purse.Proofs.Store.Moves
import Purse.Proofs.Crowd.Basic

/-!
# Calls as moves

Every call on the ledger is taken apart into moves on its store: a call that is answered at once,
one that has to wait, the rest of a call that has waited, and what is left to do when an agent is
dropped. The moves are loud exactly when the call succeeds and is one that publishes.

## Results

* `perform_moves`, `resume_moves`, `abandon_moves`: the moves of each kind of turn.
-/

namespace Purse

namespace Store.Step

variable {α : Type}

/-- The store that a call leaves. -/
def store : Step α → Store
  | .replied _ s _ | .waiting _ s => s

/-- The row that a call has to wait for. -/
def row? : Step α → Option WalletId
  | .replied _ _ _ => none
  | .waiting row _ => some row

/-- Whether a call succeeded. -/
def succeeded : Step α → Bool
  | .replied (.ok _) _ _ => true
  | .replied (.error _) _ _ | .waiting _ _ => false

end Store.Step

namespace Outcome

variable {c : Call}

/-- The store that a call leaves. -/
def store : Outcome c → Store
  | .replied _ l _ | .waiting _ l | .faulted _ l => l.store

/-- The row that a call has to wait for. -/
def row? : Outcome c → Option WalletId
  | .replied _ _ _ | .faulted _ _ => none
  | .waiting row _ => some row

/-- Whether a call may have changed committed wallets. -/
def isLoud : Outcome c → Bool
  | .replied (.ok _) _ _ => c.publishes
  | .replied (.error _) _ _ | .waiting _ _ | .faulted _ _ => false

end Outcome

namespace Store

variable {s : Store} {a : Agent} {id : WalletId} {row : Row} {user : UserId} {amount : Decimal}
  {now : Timestamp} {loud : Bool}

/-- The store after an agent came for a row that is free: the agent has been given it. -/
theorem holder?_entered (hRow : s.rows.get? id = some row) (hFree : row.holder = none) :
    (s.modifyRow id (·.entered a)).holder? id = some a := by
  have hGet : (s.modifyRow id (·.entered a)).rows.get? id = some (row.entered a) := by
    rw [get?_modifyRow, if_pos rfl, hRow]
    rfl
  rw [holder?_of_get? hGet]
  unfold Row.entered
  rw [hFree]

/-- Coming for a row: the agent waits, or is given the row and goes on. -/
theorem acquire_moves {α : Type} (isLoud : Step α → Bool) {granted : Store → Step α}
    (hRow : s.rows.get? id = some row) (hNew : id ∉ s.locked a)
    (hGranted : (s.modifyRow id (·.entered a)).holder? id = some a →
      Moves a (isLoud (granted (s.modifyRow id (·.entered a))))
        (some id, s.modifyRow id (·.entered a))
        ((granted (s.modifyRow id (·.entered a))).row?,
          (granted (s.modifyRow id (·.entered a))).store)) :
    Moves a (isLoud (s.acquire a id row granted)) (none, s)
      ((s.acquire a id row granted).row?, (s.acquire a id row granted).store) := by
  unfold acquire
  cases hFree : row.holder with
  | none => exact .head (.enter hRow hNew) (hGranted (holder?_entered hRow hFree))
  | some b => exact .single (.enter hRow hNew)

/-! ## The rest of a call that has been given its row -/

theorem lockGranted_moves (hHolder : s.holder? id = some a) :
    Moves a loud (some id, s)
      ((s.lockGranted a id user).row?, (s.lockGranted a id user).store) := by
  obtain ⟨row, hRow, hFront⟩ := exists_row_of_holder? hHolder
  unfold lockGranted
  rw [wallet?_of_get? hRow]
  by_cases hOwned : row.committed.isOwnedBy user = true
  · simp only [hOwned, if_true]
    exact .single (.checkOut hRow hFront)
  · simp only [hOwned]
    exact .single (.letGo hHolder)

theorem addToCopy_moves {w : Wallet} (hCopy : s.copy? a id = some w) :
    Moves a loud (none, s)
      ((s.addToCopy a w amount now).row?, (s.addToCopy a w amount now).store) := by
  unfold addToCopy
  cases hAdjust : w.adjust amount now with
  | error e => exact .refl
  | ok w' => exact .single (.revise hCopy hAdjust)

/-- A wallet that has just been checked out is its own working copy. -/
theorem copy?_checkOut {w : Wallet} (hNew : w.id ∉ s.locked a) :
    (s.checkOut a w).copy? a w.id = some w := by
  unfold copy?
  rw [copies_checkOut, if_pos rfl, List.find?_append]
  rw [← copy?_eq_none_iff] at hNew
  unfold copy? at hNew
  rw [hNew]
  simp

theorem addWithinGranted_moves (hHolder : s.holder? id = some a) (hNew : id ∉ s.locked a)
    (hKeyed : ∀ w, s.wallet? id = some w → w.id = id) :
    Moves a loud (some id, s)
      ((s.addWithinGranted a id amount now).row?, (s.addWithinGranted a id amount now).store) := by
  obtain ⟨row, hRow, hFront⟩ := exists_row_of_holder? hHolder
  have hWallet := wallet?_of_get? hRow
  obtain rfl : row.committed.id = id := hKeyed _ hWallet
  unfold addWithinGranted
  rw [hWallet]
  exact .head (.checkOut hRow hFront) (addToCopy_moves (copy?_checkOut hNew))

theorem addGranted_moves (hHolder : s.holder? id = some a)
    (hKeyed : ∀ w, s.wallet? id = some w → w.id = id) :
    Moves a (s.addGranted id amount now).succeeded (some id, s)
      ((s.addGranted id amount now).row?, (s.addGranted id amount now).store) := by
  obtain ⟨row, hRow, hFront⟩ := exists_row_of_holder? hHolder
  have hWallet := wallet?_of_get? hRow
  unfold addGranted
  cases hAdjust : row.committed.adjust amount now with
  | error e =>
    simp only [hWallet, hAdjust]
    exact .single (.letGo hHolder)
  | ok w =>
    simp only [hWallet, hAdjust]
    have hId : w.id = id := (id_of_adjust hAdjust).trans (hKeyed _ hWallet)
    have hStill : (s.publish w).holder? id = some a := by
      have hGet : (s.publish w).rows.get? id = some { row with committed := w } := by
        rw [publish, get?_modifyRow, if_pos hId, hRow]
        rfl
      rw [holder?_of_get? hGet]
      exact hFront
    -- the row is let go of by the agent that has published in it
    exact .head (.publish rfl hHolder hWallet hAdjust) (.single (.letGo hStill))

/-! ## Calls that come for a row -/

theorem lock_moves :
    Moves a loud (none, s) ((s.lock a id user).row?, (s.lock a id user).store) := by
  unfold lock
  cases hCopy : s.copy? a id with
  | some w => exact .refl
  | none =>
    have hNew := copy?_eq_none_iff.mp hCopy
    cases hRow : s.rows.get? id with
    | none => exact .refl
    | some row =>
      simp only
      split
      · exact acquire_moves (fun _ => loud) hRow hNew lockGranted_moves
      · exact .refl

/-- Coming for a row does not touch the wallets. -/
theorem keyed_entered (hKeyed : ∀ {x w}, s.wallet? x = some w → w.id = x) {w : Wallet}
    (hWallet : (s.modifyRow id (·.entered a)).wallet? id = some w) : w.id = id := by
  rw [wallet?_modifyRow fun _ => Row.committed_entered] at hWallet
  exact hKeyed hWallet

theorem addWithin_moves (hKeyed : ∀ {x w}, s.wallet? x = some w → w.id = x) :
    Moves a loud (none, s)
      ((s.addWithin a id amount now).row?, (s.addWithin a id amount now).store) := by
  unfold addWithin
  split
  · -- an armed failure is used up, which nobody sees in the rows
    exact .single (.aside rfl rfl)
  · cases hCopy : s.copy? a id with
    | some w => exact addToCopy_moves hCopy
    | none =>
      have hNew := copy?_eq_none_iff.mp hCopy
      cases hRow : s.rows.get? id with
      | none => exact .refl
      | some row =>
        exact acquire_moves (fun _ => loud) hRow hNew fun hHolder =>
          addWithinGranted_moves hHolder hNew fun w => keyed_entered hKeyed

theorem add_moves (hKeyed : ∀ {x w}, s.wallet? x = some w → w.id = x) (hNew : id ∉ s.locked a) :
    Moves a (s.add a id amount now).succeeded (none, s)
      ((s.add a id amount now).row?, (s.add a id amount now).store) := by
  unfold add
  cases hRow : s.rows.get? id with
  | none => exact .refl
  | some row =>
    exact acquire_moves Step.succeeded hRow hNew fun hHolder =>
      addGranted_moves hHolder fun w => keyed_entered hKeyed

end Store

/-! ## Turns -/

namespace Ledger

open Store

variable {env : Surroundings} {l : Ledger} {a : Agent} {c : Call}

theorem store_record : (l.record a c).store = l.store := by
  unfold record
  split <;> rfl

/-- A call is answered in earnest or made to fail, over a ledger with the same store. -/
theorem perform_eq (env : Surroundings) (l : Ledger) (a : Agent) (c : Call) :
    ∃ l' : Ledger, l'.store = l.store ∧
      (l.perform env a c = l'.execute env a c ∨
        ∃ reason, l.perform env a c = l'.refuse a c reason) := by
  unfold perform
  cases c.method? with
  | none => exact ⟨l.record a c, store_record, Or.inl rfl⟩
  | some m =>
    cases hFailing : (l.record a c).failing.get? m with
    | none =>
      refine ⟨l.record a c, store_record, Or.inl ?_⟩
      simp only [hFailing]
    | some reason =>
      refine ⟨{ l.record a c with failing := (l.record a c).failing.erase m }, store_record,
        Or.inr ⟨reason, ?_⟩⟩
      simp only [hFailing]

/-- A call on the store is loud when it succeeds and publishes. -/
theorem ofStep_moves {row : Option WalletId} {s : Store} (l : Ledger)
    {step : Store.Step c.Answer}
    (hMoves : Moves a (step.succeeded && c.publishes) (row, s) (step.row?, step.store)) :
    Moves a (l.ofStep step).isLoud (row, s) ((l.ofStep step).row?, (l.ofStep step).store) := by
  rcases step with ⟨_ | _, _, _⟩ | _ <;> exact hMoves

/-- A call that is made to fail. -/
theorem refuse_moves (reason : String) :
    Moves a (l.refuse a c reason).isLoud (none, l.store)
      ((l.refuse a c reason).row?, (l.refuse a c reason).store) := by
  cases c with
  | commit | rollback => exact .single .drop
  | _ => exact .refl

/-- A call answered in earnest. -/
theorem execute_moves {isOpen : Bool} (hFits : c.fits isOpen = true)
    (hClosed : isOpen = false → l.store.copies a = [])
    (hKeyed : ∀ {x w}, l.store.wallet? x = some w → w.id = x) :
    Moves a (l.execute env a c).isLoud (none, l.store)
      ((l.execute env a c).row?, (l.execute env a c).store) := by
  -- outside of transactions there are no copies
  have hNone : isOpen = false → ∀ id, id ∉ l.store.locked a := by
    intro hShut id
    unfold locked
    rw [hClosed hShut]
    exact List.not_mem_nil
  cases c with
  | begin => exact .single (.begin (hClosed (by simpa [Call.fits] using hFits)))
  | commit => exact .single (.commit rfl)
  | rollback => exact .single .drop
  | lock id user => exact ofStep_moves l lock_moves
  | addWithin id amount => exact ofStep_moves l.read (addWithin_moves hKeyed)
  | add id amount =>
    refine ofStep_moves l.read ?_
    rw [Call.publishes, Bool.and_true]
    exact add_moves hKeyed (hNone (by simpa [Call.fits] using hFits) id)
  | insert w =>
    cases hInsert : l.store.insert w with
    | ok s =>
      simp only [execute, hInsert]
      exact .single (.insert rfl hInsert)
    | error e =>
      simp only [execute, hInsert]
      exact .refl
  | claim key =>
    simp only [execute]
    cases l.keys.claim l.now key <;> exact .refl
  | newId =>
    simp only [execute]
    cases l.mint.next? (l.wallTime env).toMillis.toNat (env.random l.readings) <;> exact .refl
  | get | list | release | readClock => exact .refl

/-- A call, made to fail or answered in earnest. -/
theorem perform_moves {isOpen : Bool} (hFits : c.fits isOpen = true)
    (hClosed : isOpen = false → l.store.copies a = [])
    (hKeyed : ∀ {x w}, l.store.wallet? x = some w → w.id = x) :
    Moves a (l.perform env a c).isLoud (none, l.store)
      ((l.perform env a c).row?, (l.perform env a c).store) := by
  obtain ⟨l', hStore, hEarnest | ⟨reason, hRefused⟩⟩ := perform_eq env l a c
  · rw [hEarnest, ← hStore]
    rw [← hStore] at hClosed hKeyed
    exact execute_moves hFits hClosed hKeyed
  · rw [hRefused, ← hStore]
    exact refuse_moves reason

/-- The rest of a call whose agent has been given the row it waited for. -/
theorem resume_moves {id : WalletId} (hRow : c.row? = some id)
    (hHolder : l.store.holder? id = some a) (hNew : id ∉ l.store.locked a)
    (hKeyed : ∀ {x w}, l.store.wallet? x = some w → w.id = x) :
    Moves a (l.resume env a c).isLoud (some id, l.store)
      ((l.resume env a c).row?, (l.resume env a c).store) := by
  cases c with
  | lock wallet user =>
    obtain rfl := Option.some.inj hRow
    exact ofStep_moves l (lockGranted_moves hHolder)
  | addWithin wallet amount =>
    obtain rfl := Option.some.inj hRow
    exact ofStep_moves l.read (addWithinGranted_moves hHolder hNew fun w => hKeyed)
  | add wallet amount =>
    obtain rfl := Option.some.inj hRow
    refine ofStep_moves l.read ?_
    rw [Call.publishes, Bool.and_true]
    exact addGranted_moves hHolder fun w => hKeyed
  | _ => simp [Call.row?] at hRow

/-- An agent that is dropped: it gives up its place or the row it has been given, and then its
transaction. -/
theorem abandon_moves (row : Option WalletId) :
    Moves a false (row, l.store) (none, (l.abandon a row).1.store) := by
  unfold abandon
  cases row with
  | none => exact .single .drop
  | some id =>
    simp only [withdraw]
    split
    · next hHolds =>
      exact .head (.letGo (holds_iff.mp hHolds)) (.single .drop)
    · next hHolds =>
      exact .head (.leave (fun hHolder => hHolds (holds_iff.mpr hHolder))) (.single .drop)

end Ledger

end Purse
