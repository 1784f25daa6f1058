import Purse.Proofs.Crowd.Calls

/-!
# What answers tell

An agent sees its working copies and the committed wallets, and a wallet of which it has a copy
shows it the copy (`View.shown?`). `Told` says for each call and each answer what the caller sees
before and after; where it says nothing of the committed wallets, they are as before if the answer
was not loud (`Moves.wallet?_eq`).

## Results

* `perform_told`, `resume_told`: every answer keeps to `Told`, and a call that has to wait is one for
  a row that the caller has no copy of.
* `Told.closed`: a call that leaves no transaction open leaves no copies.
-/

namespace Purse

/-- What an agent sees of a store. -/
structure View where
  copies : List Wallet
  wallet? : WalletId → Option Wallet

namespace View

/-- The working copy of a wallet. -/
def copy? (v : View) (id : WalletId) : Option Wallet := v.copies.find? (·.id = id)

/-- The ids of the working copies. -/
def locked (v : View) : List WalletId := v.copies.map Wallet.id

/-- A wallet as the agent's transaction shows it: the working copy, or else the committed wallet. -/
def shown? (v : View) (id : WalletId) : Option Wallet := (v.copy? id).or (v.wallet? id)

/-- Without copies, what is shown are the committed wallets. -/
theorem shown?_of_nil {v : View} (hCopies : v.copies = []) : v.shown? = v.wallet? := by
  funext id
  unfold shown? copy?
  rw [hCopies]
  rfl

end View

/-- What an agent sees of a store. -/
def Store.view (s : Store) (a : Agent) : View := ⟨s.copies a, s.wallet?⟩

/-- What the caller sees before and after a call was answered. -/
def Told (v v' : View) : (c : Call) → Result c.Answer → Prop
  | .begin, .ok _ | .rollback, _ => v'.copies = []
  | .begin, .error e => v'.copies = v.copies ∧ e ≠ .insufficientBalance
  | .commit, .ok _ => v'.copies = [] ∧ v'.wallet? = v.shown?
  | .commit, .error e => v'.copies = [] ∧ e ≠ .insufficientBalance
  | .lock _ _, .error e => v'.copies = v.copies ∧ e ≠ .insufficientBalance
  | .lock id user, .ok (some w) => v.shown? id = some w ∧ w.isOwnedBy user = true ∧
    v'.copies = if id ∈ v.locked then v.copies else v.copies ++ [w]
  | .addWithin id amount, .ok _ => ∃ w w' now, v.shown? id = some w ∧ w.adjust amount now = .ok w' ∧
    v'.copies = if id ∈ v.locked then v.copies.map fun c => if c.id = w'.id then w' else c
      else v.copies ++ [w']
  | .addWithin id amount, .error e => (v'.copies = v.copies ∨
      id ∉ v.locked ∧ ∃ w, v.wallet? id = some w ∧ v'.copies = v.copies ++ [w]) ∧
    (e = .insufficientBalance →
      ∃ w now, v.shown? id = some w ∧ w.adjust amount now = .error .insufficientBalance)
  | .add id amount, .ok _ => v'.copies = v.copies ∧
    ∃ w w' now, v.wallet? id = some w ∧ w.adjust amount now = .ok w' ∧
      v'.wallet? = Function.update v.wallet? id (some w')
  | _, _ => v'.copies = v.copies

/-- A call that leaves no transaction open leaves no copies. -/
theorem Told.closed {v v' : View} {c : Call} {answer : Result c.Answer} {isOpen : Bool}
    (hTold : Told v v' c answer) (hFits : c.fits isOpen = true)
    (hClosed : isOpen = false → v.copies = []) (hShut : c.leavesOpen isOpen answer = false) :
    v'.copies = [] := by
  cases c with
  | begin =>
    cases answer with
    | ok opened => exact hTold
    | error e => exact hTold.1.trans (hClosed hShut)
  | commit =>
    cases answer with
    | ok closed => exact hTold.1
    | error e => exact hTold.1
  | rollback =>
    cases answer with
    | ok closed => exact hTold
    | error e => exact hTold
  | lock | addWithin =>
    -- both are made with a transaction open, and neither closes it
    obtain rfl : isOpen = true := hFits
    cases answer <;> simp [Call.leavesOpen] at hShut
  | add =>
    -- made with no transaction open, so there were no copies before
    have hSame : v'.copies = v.copies := by
      cases answer with
      | ok added => exact hTold.1
      | error e => exact hTold
    exact hSame.trans (hClosed (by simpa [Call.fits] using hFits))
  | insert | get | list | claim | release | newId | readClock =>
    have hSame : v'.copies = v.copies := by
      cases answer with
      | ok value => exact hTold
      | error e => exact hTold
    refine hSame.trans (hClosed ?_)
    cases answer <;> exact hShut

/-- An update that fails leaves a transaction's copies as they are if the wallet is one of them. -/
theorem Told.copies_of_mem {v v' : View} {id : WalletId} {amount : Decimal} {e : LedgerError}
    (hTold : Told v v' (.addWithin id amount) (.error e)) (hMem : id ∈ v.locked) :
    v'.copies = v.copies :=
  hTold.1.resolve_right fun hNew => hNew.1 hMem

/-- What the caller sees of what became of a call on the store. -/
def Store.Step.Told (c : Call) (v : View) (a : Agent) : Store.Step c.Answer → Prop
  | .replied answer s _ => Purse.Told v (s.view a) c answer
  | .waiting row s => c.row? = some row ∧ row ∉ v.locked ∧ s.view a = v

/-- What the caller sees of what became of a call. -/
def Outcome.Told {c : Call} (v : View) (a : Agent) : Outcome c → Prop
  | .replied answer l _ => Purse.Told v (l.store.view a) c answer
  | .waiting row l => c.row? = some row ∧ row ∉ v.locked ∧ l.store.view a = v
  | .faulted _ l => l.store.view a = v

namespace Store

variable {s : Store} {a : Agent} {id : WalletId} {row : Row} {user : UserId} {amount : Decimal}
  {now : Timestamp} {w : Wallet}

/-- Coming for a row changes nothing that can be seen. -/
theorem view_entered : (s.modifyRow id (·.entered a)).view a = s.view a := by
  unfold view
  rw [copies_modifyRow, funext (wallet?_modifyRow (fun _ => Row.committed_entered) s id)]

/-- Nor does letting go of it. -/
theorem view_release : (s.release id).1.view a = s.view a := by
  rw [fst_release]
  unfold view
  rw [copies_modifyRow, funext (wallet?_modifyRow (fun _ => Row.committed_released) s id)]

theorem shown?_of_copy? (hCopy : s.copy? a id = some w) : (s.view a).shown? id = some w := by
  show (s.copy? a id).or (s.wallet? id) = some w
  rw [hCopy]
  rfl

theorem shown?_of_not_mem (hNew : id ∉ s.locked a) : (s.view a).shown? id = s.wallet? id := by
  show (s.copy? a id).or (s.wallet? id) = s.wallet? id
  rw [copy?_eq_none_iff.mpr hNew]
  rfl

/-- Wallets are shown under their ids. -/
theorem id_of_shown? (hKeyed : ∀ {x w}, s.wallet? x = some w → w.id = x)
    (hShown : (s.view a).shown? id = some w) : w.id = id := by
  rcases Option.or_eq_some_iff.mp hShown with hCopy | ⟨-, hWallet⟩
  · exact id_of_copy? hCopy
  · exact hKeyed hWallet

/-! ## The rest of a call that has been given its row -/

theorem lockGranted_told (hNew : id ∉ s.locked a) :
    (s.lockGranted a id user).Told (.lock id user) (s.view a) a := by
  unfold lockGranted
  cases hWallet : s.wallet? id with
  | none => rfl
  | some w =>
    simp only
    split
    · next hOwned =>
      refine ⟨(shown?_of_not_mem hNew).trans hWallet, hOwned, ?_⟩
      show (s.checkOut a w).copies a = if id ∈ s.locked a then s.copies a else s.copies a ++ [w]
      rw [if_neg hNew, copies_checkOut, if_pos rfl]
    · -- somebody else's wallet is let go of again
      show ((s.release id).1.view a).copies = s.copies a
      rw [view_release]
      rfl

theorem addToCopy_told (hCopy : s.copy? a id = some w) :
    (s.addToCopy a w amount now).Told (.addWithin id amount) (s.view a) a := by
  have hShown := shown?_of_copy? hCopy
  unfold addToCopy
  cases hAdjust : w.adjust amount now with
  | error e =>
    refine ⟨Or.inl rfl, ?_⟩
    rintro rfl
    exact ⟨w, now, hShown, hAdjust⟩
  | ok w' =>
    refine ⟨w, w', now, hShown, hAdjust, ?_⟩
    show (s.revise a w').copies a = if id ∈ s.locked a then _ else _
    rw [if_pos (mem_locked_of_copy? hCopy), copies_revise, if_pos rfl]
    rfl

/-- Revising a copy that has just been checked out. -/
theorem map_append_of_not_mem {cs : List Wallet} {w w' : Wallet} (hId : w'.id = w.id)
    (hNew : w.id ∉ cs.map Wallet.id) :
    (cs ++ [w]).map (fun c => if c.id = w'.id then w' else c) = cs ++ [w'] := by
  have hRest : cs.map (fun c => if c.id = w'.id then w' else c) = cs := by
    refine (List.map_congr_left fun c hMem => ?_).trans cs.map_id
    rw [if_neg]
    · rfl
    · rintro hSame
      exact hNew (List.mem_map.mpr ⟨c, hMem, hSame.trans hId⟩)
  rw [List.map_append, hRest]
  simp [hId]

theorem addWithinGranted_told (hNew : id ∉ s.locked a)
    (hKeyed : ∀ {w}, s.wallet? id = some w → w.id = id) :
    (s.addWithinGranted a id amount now).Told (.addWithin id amount) (s.view a) a := by
  have hMine : id ∉ (s.view a).locked := hNew
  unfold addWithinGranted
  cases hWallet : s.wallet? id with
  | none =>
    refine ⟨Or.inl rfl, ?_⟩
    rintro ⟨⟩
  | some w =>
    have hShown : (s.view a).shown? id = some w := (shown?_of_not_mem hNew).trans hWallet
    simp only [addToCopy]
    cases hAdjust : w.adjust amount now with
    | error e =>
      -- the row stays locked, with the wallet as it is
      refine ⟨Or.inr ⟨hMine, w, hWallet, ?_⟩, ?_⟩
      · show (s.checkOut a w).copies a = _
        rw [copies_checkOut, if_pos rfl]
        rfl
      · rintro rfl
        exact ⟨w, now, hShown, hAdjust⟩
    | ok w' =>
      refine ⟨w, w', now, hShown, hAdjust, ?_⟩
      -- checked out and revised at once: what is added to the copies is the revised one
      show ((s.checkOut a w).revise a w').copies a = _
      rw [if_neg hMine, copies_revise, if_pos rfl, copies_checkOut, if_pos rfl]
      refine map_append_of_not_mem (id_of_adjust hAdjust) ?_
      rw [hKeyed hWallet]
      exact hNew

theorem addGranted_told (hKeyed : ∀ {w}, s.wallet? id = some w → w.id = id) :
    (s.addGranted id amount now).Told (.add id amount) (s.view a) a := by
  unfold addGranted
  cases hWallet : s.wallet? id with
  | none => rfl
  | some w =>
    simp only
    cases hAdjust : w.adjust amount now with
    | error e =>
      show ((s.release id).1.view a).copies = s.copies a
      rw [view_release]
      rfl
    | ok w' =>
      -- letting go shows nothing, so what is seen is what was published
      have hId : w'.id = id := (id_of_adjust hAdjust).trans (hKeyed hWallet)
      have hView : ((s.publish w').release id).1.view a = (s.publish w').view a := view_release
      refine ⟨?_, w, w', now, hWallet, hAdjust, ?_⟩
      · show (((s.publish w').release id).1.view a).copies = _
        rw [hView]
        rfl
      · show (((s.publish w').release id).1.view a).wallet? = _
        rw [hView]
        show (s.publish w').wallet? = Function.update s.wallet? id (some w')
        funext x
        rw [wallet?_publish, Function.update_apply, hId]
        by_cases hx : id = x
        · subst hx
          rw [if_pos rfl, if_pos rfl, hWallet]
          rfl
        · rw [if_neg hx, if_neg (Ne.symm hx)]

/-! ## Calls that come for a row -/

/-- Coming for a row: what was seen before the agent was given it is what is seen after. -/
theorem acquire_told {c : Call} {granted : Store → Step c.Answer} (hRow : c.row? = some id)
    (hNew : id ∉ s.locked a)
    (hGranted : ∀ t : Store, t.view a = s.view a → (granted t).Told c (t.view a) a) :
    (s.acquire a id row granted).Told c (s.view a) a := by
  unfold acquire
  cases row.holder with
  | none =>
    have hSeen : (s.modifyRow id (·.entered a)).view a = s.view a := view_entered
    have hTold := hGranted _ hSeen
    rw [hSeen] at hTold
    exact hTold
  | some b => exact ⟨hRow, hNew, view_entered⟩

theorem lock_told : (s.lock a id user).Told (.lock id user) (s.view a) a := by
  unfold lock
  cases hCopy : s.copy? a id with
  | some w =>
    simp only
    by_cases hOwned : w.isOwnedBy user = true
    · rw [if_pos hOwned]
      have hMem : id ∈ (s.view a).locked := mem_locked_of_copy? hCopy
      refine ⟨shown?_of_copy? hCopy, hOwned, ?_⟩
      rw [if_pos hMem]
    · rw [if_neg hOwned]
      rfl
  | none =>
    have hNew := copy?_eq_none_iff.mp hCopy
    cases hRow : s.rows.get? id with
    | none => rfl
    | some row =>
      simp only
      split
      · refine acquire_told rfl hNew fun t hSeen => lockGranted_told ?_
        rw [show t.locked a = s.locked a from congrArg View.locked hSeen]
        exact hNew
      · rfl

theorem addWithin_told (hKeyed : ∀ {x w}, s.wallet? x = some w → w.id = x) :
    (s.addWithin a id amount now).Told (.addWithin id amount) (s.view a) a := by
  unfold addWithin
  split
  · refine ⟨Or.inl rfl, ?_⟩
    rintro ⟨⟩
  · cases hCopy : s.copy? a id with
    | some w => exact addToCopy_told hCopy
    | none =>
      have hNew := copy?_eq_none_iff.mp hCopy
      cases hRow : s.rows.get? id with
      | none =>
        refine ⟨Or.inl rfl, ?_⟩
        rintro ⟨⟩
      | some row =>
        refine acquire_told rfl hNew fun t hSeen => addWithinGranted_told ?_ ?_
        · rw [show t.locked a = s.locked a from congrArg View.locked hSeen]
          exact hNew
        · rw [show t.wallet? = s.wallet? from congrArg View.wallet? hSeen]
          exact hKeyed

theorem add_told (hKeyed : ∀ {x w}, s.wallet? x = some w → w.id = x) (hNew : id ∉ s.locked a) :
    (s.add a id amount now).Told (.add id amount) (s.view a) a := by
  unfold add
  cases hRow : s.rows.get? id with
  | none => rfl
  | some row =>
    refine acquire_told rfl hNew fun t hSeen => addGranted_told ?_
    rw [show t.wallet? = s.wallet? from congrArg View.wallet? hSeen]
    exact hKeyed

/-! ## Calls that end a transaction -/

theorem view_drop (hNodup : (s.locked a).Nodup) : (s.drop a).1.view a = ⟨[], s.wallet?⟩ := by
  unfold view
  rw [copies_drop, if_pos rfl, funext (wallet?_drop hNodup)]

/-- A commit makes what the transaction has shown of the wallets what they are. -/
theorem view_commit {pending : Agent → Option WalletId} (hCoh : Coherent pending s) :
    (s.commit a).1.view a = ⟨[], (s.view a).shown?⟩ := by
  have hWallets : (s.commit a).1.wallet? = (s.view a).shown? := by
    funext x
    rw [wallet?_commit hCoh.nodup]
    cases hCopy : s.copy? a x with
    | none => exact (shown?_of_not_mem (copy?_eq_none_iff.mp hCopy)).symm
    | some w =>
      -- a copy is of a wallet that is there, so it is published
      obtain ⟨row, hRow, -⟩ :=
        exists_row_of_holder? (hCoh.holder?_of_locked (mem_locked_of_copy? hCopy))
      rw [shown?_of_copy? hCopy, wallet?_of_get? hRow]
      rfl
  unfold view
  rw [copies_commit, if_pos rfl]
  exact congrArg (View.mk []) hWallets

end Store

/-! ## Turns -/

namespace Ledger

open Store

variable {env : Surroundings} {l : Ledger} {a : Agent} {c : Call}
  {pending : Agent → Option WalletId}

theorem ofStep_told {v : View} (l : Ledger) {step : Store.Step c.Answer}
    (hTold : step.Told c v a) : (l.ofStep step).Told v a := by
  cases step with
  | replied answer s woken => exact hTold
  | waiting row s => exact hTold

/-- A call that is made to fail. -/
theorem refuse_told (hNodup : (l.store.locked a).Nodup) (reason : String) :
    (l.refuse a c reason).Told (l.store.view a) a := by
  cases c with
  | begin | lock =>
    refine ⟨rfl, ?_⟩
    rintro ⟨⟩
  | commit =>
    refine ⟨?_, ?_⟩
    · show ((l.store.drop a).1.view a).copies = []
      rw [view_drop hNodup]
    · rintro ⟨⟩
  | rollback =>
    show ((l.store.drop a).1.view a).copies = []
    rw [view_drop hNodup]
  | addWithin id amount =>
    refine ⟨Or.inl rfl, ?_⟩
    rintro ⟨⟩
  | _ => rfl

/-- A call answered in earnest. -/
theorem execute_told (hCoh : l.store.Coherent pending) {isOpen : Bool}
    (hFits : c.fits isOpen = true) (hClosed : isOpen = false → l.store.copies a = []) :
    (l.execute env a c).Told (l.store.view a) a := by
  cases c with
  | begin =>
    show (l.store.begin a).copies a = []
    rw [copies_begin, if_pos rfl]
  | commit =>
    show ((l.store.commit a).1.view a).copies = [] ∧ ((l.store.commit a).1.view a).wallet? = _
    rw [view_commit hCoh]
    exact ⟨rfl, rfl⟩
  | rollback =>
    show ((l.store.drop a).1.view a).copies = []
    rw [view_drop hCoh.nodup]
  | lock id user => exact ofStep_told l lock_told
  | addWithin id amount => exact ofStep_told l.read (addWithin_told hCoh.keyed)
  | add id amount =>
    refine ofStep_told l.read (add_told hCoh.keyed ?_)
    rw [locked, hClosed (by simpa [Call.fits] using hFits)]
    exact List.not_mem_nil
  | insert w =>
    cases hInsert : l.store.insert w with
    | ok s =>
      simp only [execute, hInsert]
      exact copies_congr (insert_eq_ok hInsert).2.2 a
    | error e =>
      simp only [execute, hInsert]
      rfl
  | claim key =>
    simp only [execute]
    cases l.keys.claim l.now key <;> rfl
  | newId =>
    simp only [execute]
    cases l.mint.next? (l.wallTime env).toMillis.toNat (env.random l.readings) <;> rfl
  | get | list | release | readClock => rfl

/-- Every answer keeps to what is told of its call. -/
theorem perform_told (hCoh : l.store.Coherent pending) {isOpen : Bool}
    (hFits : c.fits isOpen = true) (hClosed : isOpen = false → l.store.copies a = []) :
    (l.perform env a c).Told (l.store.view a) a := by
  obtain ⟨l', hStore, hEarnest | ⟨reason, hRefused⟩⟩ := perform_eq env l a c
  · rw [hEarnest, ← hStore]
    rw [← hStore] at hCoh hClosed
    exact execute_told hCoh hFits hClosed
  · rw [hRefused, ← hStore]
    rw [← hStore] at hCoh
    exact refuse_told hCoh.nodup reason

/-- The answer of a call that has waited keeps to what is told of the call. -/
theorem resume_told {id : WalletId} (hCoh : l.store.Coherent pending) (hRow : c.row? = some id)
    (hNew : id ∉ l.store.locked a) : (l.resume env a c).Told (l.store.view a) a := by
  cases c with
  | lock wallet user =>
    obtain rfl := Option.some.inj hRow
    exact ofStep_told l (lockGranted_told hNew)
  | addWithin wallet amount =>
    obtain rfl := Option.some.inj hRow
    exact ofStep_told l.read (addWithinGranted_told hNew hCoh.keyed)
  | add wallet amount =>
    obtain rfl := Option.some.inj hRow
    exact ofStep_told l.read (addGranted_told hCoh.keyed)
  | _ => simp [Call.row?] at hRow

end Ledger

end Purse
