import Purse.Proofs.Crowd.Course

/-!
# Who is woken

Whatever an agent does, it may hand rows on to others that wait for them. A call comes with the agents
that it gave a row to, and these are told exactly (`Store.Wakes`): nobody is left out, nobody is named
twice, and nobody is named that did not get the row it waits for. Whoever else held a row before holds
it still.

## Definitions

* `Store.Wakes`: the agents woken are those that got the row they wait for.
* `Store.Front`: an agent holds a row, and all that queue there wait for it.

## Results

* `Wakes.trans`: one thing done after another.
* `perform_wakes`, `resume_wakes`, `abandon_wakes`: each kind of turn.
-/

namespace Purse

namespace Store.Step

variable {α : Type}

/-- The agents that a call gave a row to. -/
def woken : Step α → List Agent
  | .replied _ _ woken => woken
  | .waiting _ _ => []

end Store.Step

namespace Outcome

variable {c : Call}

/-- The agents that a call gave a row to. -/
def woken : Outcome c → List Agent
  | .replied _ _ woken => woken
  | .waiting _ _ | .faulted _ _ => []

end Outcome

namespace Store

variable {pending : Agent → Option WalletId} {s s' s'' : Store} {a : Agent} {id : WalletId}
  {row : Row} {user : UserId} {amount : Decimal} {now : Timestamp} {woken others : List Agent}

/-- What an agent did took no row from anybody else, and just those were woken that got the row they
wait for. -/
structure Wakes (pending : Agent → Option WalletId) (a : Agent) (s s' : Store)
    (woken : List Agent) : Prop where
  kept : ∀ {b id}, b ≠ a → s.holder? id = some b → s'.holder? id = some b
  nodup : woken.Nodup
  mem_iff : ∀ {b}, b ∈ woken ↔
    b ≠ a ∧ ∃ id, pending b = some id ∧ s.holder? id ≠ some b ∧ s'.holder? id = some b

namespace Wakes

/-- Where no row goes to anybody else, nobody is woken. -/
theorem of_same (hSame : ∀ b id, b ≠ a → (s'.holder? id = some b ↔ s.holder? id = some b)) :
    Wakes pending a s s' [] where
  kept hb hHolder := (hSame _ _ hb).mpr hHolder
  nodup := List.nodup_nil
  mem_iff := by
    refine ⟨fun hMem => absurd hMem List.not_mem_nil, ?_⟩
    rintro ⟨hb, id, -, hNot, hHolder⟩
    exact absurd ((hSame _ _ hb).mp hHolder) hNot

theorem of_rows (hRows : s'.rows = s.rows) : Wakes pending a s s' [] := by
  refine of_same fun b id _ => ?_
  unfold holder?
  rw [hRows]

theorem refl (pending : Agent → Option WalletId) (a : Agent) (s : Store) :
    Wakes pending a s s [] :=
  of_rows rfl

/-- Whoever was woken has its row, and so is not woken again. -/
theorem trans (hFirst : Wakes pending a s s' woken) (hThen : Wakes pending a s' s'' others) :
    Wakes pending a s s'' (woken ++ others) where
  kept hb hHolder := hThen.kept hb (hFirst.kept hb hHolder)
  nodup := by
    refine List.nodup_append.mpr ⟨hFirst.nodup, hThen.nodup, ?_⟩
    rintro b hOld _ hNew rfl
    obtain ⟨-, id, hPending, -, hHolder⟩ := hFirst.mem_iff.mp hOld
    obtain ⟨-, id', hPending', hNot, -⟩ := hThen.mem_iff.mp hNew
    obtain rfl : id = id' := Option.some.inj (hPending.symm.trans hPending')
    exact hNot hHolder
  mem_iff := by
    intro b
    rw [List.mem_append, hFirst.mem_iff, hThen.mem_iff]
    constructor
    · rintro (⟨hb, id, hPending, hNot, hHolder⟩ | ⟨hb, id, hPending, hNot, hHolder⟩)
      · exact ⟨hb, id, hPending, hNot, hThen.kept hb hHolder⟩
      · exact ⟨hb, id, hPending, fun hBefore => hNot (hFirst.kept hb hBefore), hHolder⟩
    · rintro ⟨hb, id, hPending, hNot, hHolder⟩
      by_cases hBetween : s'.holder? id = some b
      · exact Or.inl ⟨hb, id, hPending, hNot, hBetween⟩
      · exact Or.inr ⟨hb, id, hPending, hBetween, hHolder⟩

/-- What the agent itself waits for does not matter. -/
theorem congr {pending' : Agent → Option WalletId} (hWakes : Wakes pending a s s' woken)
    (hOthers : ∀ b, b ≠ a → pending' b = pending b) : Wakes pending' a s s' woken where
  kept := hWakes.kept
  nodup := hWakes.nodup
  mem_iff := by
    intro b
    rw [hWakes.mem_iff]
    refine and_congr_right fun hb => ?_
    rw [hOthers b hb]

theorem of_update {p : Option WalletId}
    (hWakes : Wakes (Function.update pending a p) a s s' woken) : Wakes pending a s s' woken :=
  hWakes.congr fun _ hb => (Function.update_of_ne hb p pending).symm

end Wakes

/-! ## Letting go of rows -/

/-- An agent holds a row, and all that queue there wait for it. -/
def Front (pending : Agent → Option WalletId) (a : Agent) (s : Store) (id : WalletId) : Prop :=
  ∃ row, s.rows.get? id = some row ∧ row.holder = some a ∧
    ∀ b ∈ row.queue, b ≠ a ∧ pending b = some id

theorem Coherent.front (hCoh : Coherent pending s) (hHolder : s.holder? id = some a) :
    Front pending a s id := by
  obtain ⟨row, hRow, hFront⟩ := exists_row_of_holder? hHolder
  refine ⟨row, hRow, hFront, fun b hMem => ?_⟩
  have hNodup := (hCoh.sound hRow).nodup
  rw [Row.line_of_holder hFront] at hNodup
  have hb : b ≠ a := by
    rintro rfl
    exact (List.nodup_cons.mp hNodup).1 hMem
  have hLine : b ∈ s.line id := by
    rw [line_of_get? hRow, Row.line_of_holder hFront]
    exact List.mem_cons_of_mem a hMem
  -- with a copy of the row it would be in front itself
  refine ⟨hb, (hCoh.stands.mp hLine).resolve_left fun hLocked => hb ?_⟩
  exact Option.some.inj ((hCoh.holder?_of_locked hLocked).symm.trans hHolder)

/-- Publishing wallets leaves the lines of all rows alone. -/
theorem Front.publish (hFront : Front pending a s id) (w : Wallet) :
    Front pending a (s.publish w) id := by
  obtain ⟨row, hRow, hHolder, hQueue⟩ := hFront
  by_cases hx : w.id = id
  · refine ⟨{ row with committed := w }, ?_, hHolder, hQueue⟩
    rw [Store.publish, get?_modifyRow, if_pos hx, hRow]
    rfl
  · refine ⟨row, ?_, hHolder, hQueue⟩
    rw [Store.publish, get?_modifyRow, if_neg hx, hRow]

theorem Front.publishAll (hFront : Front pending a s id) (ws : List Wallet) :
    Front pending a (ws.foldl Store.publish s) id := by
  induction ws generalizing s with
  | nil => exact hFront
  | cons w ws ih => exact ih (hFront.publish w)

theorem holder?_modifyRow (s : Store) (id x : WalletId) (f : Row → Row) :
    (s.modifyRow id f).holder? x =
      if id = x then (s.rows.get? x).bind fun row => (f row).holder else s.holder? x := by
  unfold holder?
  rw [get?_modifyRow]
  split
  · cases s.rows.get? x <;> rfl
  · rfl

theorem holder?_publish (s : Store) (w : Wallet) (x : WalletId) :
    (s.publish w).holder? x = s.holder? x := by
  rw [publish, holder?_modifyRow]
  split
  · rfl
  · rfl

theorem holder?_foldl_publish (ws : List Wallet) (s : Store) (x : WalletId) :
    (ws.foldl publish s).holder? x = s.holder? x := by
  induction ws generalizing s with
  | nil => rfl
  | cons w ws ih => exact (ih (s.publish w)).trans (holder?_publish s w x)

theorem wakes_publishAll (ws : List Wallet) :
    Wakes pending a s (ws.foldl publish s) [] :=
  .of_same fun b id _ => by rw [holder?_foldl_publish]

/-- Letting go of a row wakes the oldest of those that wait for it. -/
theorem wakes_release (hFront : Front pending a s id) :
    Wakes pending a s (s.release id).1 (s.release id).2 := by
  obtain ⟨row, hRow, hHolder, hQueue⟩ := hFront
  have hMine : s.holder? id = some a := (holder?_of_get? hRow).trans hHolder
  have hNow : ∀ x, (s.release id).1.holder? x =
      if id = x then row.queue.head? else s.holder? x := by
    intro x
    rw [fst_release, holder?_modifyRow]
    split
    · next hx =>
      subst hx
      rw [hRow]
      show row.released.holder = _
      unfold Row.released
      cases row.queue <;> rfl
    · rfl
  have hWoken : (s.release id).2 = row.queue.take 1 := by
    unfold release
    rw [hRow]
  refine ⟨fun {b x} hb hBefore => ?_, ?_, fun {b} => ?_⟩
  · rw [hNow, if_neg]
    · exact hBefore
    · rintro rfl
      exact hb (Option.some.inj (hBefore.symm.trans hMine))
  · rw [hWoken]
    cases row.queue <;> simp
  · have hTake : b ∈ row.queue.take 1 ↔ row.queue.head? = some b := by
      cases row.queue <;> simp [eq_comm]
    rw [hWoken, hTake]
    constructor
    · intro hNext
      obtain ⟨hb, hPending⟩ := hQueue b (List.mem_of_mem_head? hNext)
      refine ⟨hb, id, hPending, fun hBefore => ?_, ?_⟩
      · exact hb (Option.some.inj (hBefore.symm.trans hMine))
      · rw [hNow, if_pos rfl, hNext]
    · rintro ⟨-, x, -, hNot, hHolder⟩
      rw [hNow] at hHolder
      split at hHolder
      · exact hHolder
      · exact absurd hHolder hNot

theorem wakes_releaseAll {ids : List WalletId} (hNodup : ids.Nodup)
    (hFront : ∀ id ∈ ids, Front pending a s id) :
    Wakes pending a s (s.releaseAll ids).1 (s.releaseAll ids).2 := by
  induction ids generalizing s with
  | nil => exact Wakes.refl pending a s
  | cons id ids ih =>
    obtain ⟨hNew, hRest⟩ := List.nodup_cons.mp hNodup
    have hFirst := wakes_release (hFront id List.mem_cons_self)
    -- the other rows are as they were
    refine hFirst.trans (ih hRest fun x hx => ?_)
    obtain ⟨row, hRow, hHolder, hQueue⟩ := hFront x (List.mem_cons_of_mem id hx)
    refine ⟨row, ?_, hHolder, hQueue⟩
    rw [fst_release, get?_modifyRow, if_neg, hRow]
    rintro rfl
    exact hNew hx

theorem wakes_drop (hNodup : (s.locked a).Nodup)
    (hFront : ∀ id ∈ s.locked a, Front pending a s id) :
    Wakes pending a s (s.drop a).1 (s.drop a).2 := by
  have hErased : Wakes pending a s { s with transactions := s.transactions.erase a } [] :=
    .of_rows rfl
  exact hErased.trans (wakes_releaseAll hNodup hFront)

theorem Coherent.wakes_drop (hCoh : Coherent pending s) :
    Wakes pending a s (s.drop a).1 (s.drop a).2 :=
  Store.wakes_drop hCoh.nodup fun _ hMem => hCoh.front (hCoh.holder?_of_locked hMem)

theorem Coherent.wakes_commit (hCoh : Coherent pending s) :
    Wakes pending a s (s.commit a).1 (s.commit a).2 := by
  have hLocked : ((s.copies a).foldl Store.publish s).locked a = s.locked a := by
    unfold locked
    rw [copies_congr (transactions_foldl_publish _ s)]
  have hFirst : Wakes pending a s ((s.copies a).foldl Store.publish s) [] := wakes_publishAll _
  refine hFirst.trans (Store.wakes_drop ?_ ?_)
  · rw [hLocked]
    exact hCoh.nodup
  · intro id hMem
    rw [hLocked] at hMem
    exact (hCoh.front (hCoh.holder?_of_locked hMem)).publishAll _

/-! ## Coming for rows -/

/-- Who comes for a row takes it from nobody. -/
theorem wakes_enter (hRow : s.rows.get? id = some row) :
    Wakes pending a s (s.modifyRow id (·.entered a)) [] := by
  refine .of_same fun b x hb => ?_
  rw [holder?_modifyRow]
  split
  · next hx =>
    subst hx
    rw [holder?_of_get? hRow, hRow]
    show (row.entered a).holder = some b ↔ _
    unfold Row.entered
    cases hHolder : row.holder with
    | none => simp [Ne.symm hb]
    | some c => simp
  · rfl

/-- Who gives up its place in a queue takes no row either. -/
theorem wakes_leave (id : WalletId) : Wakes pending a s (s.modifyRow id (·.left a)) [] := by
  refine .of_same fun b x _ => ?_
  rw [holder?_modifyRow]
  split
  · rfl
  · rfl

theorem acquire_wakes {α : Type} {granted : Store → Step α} (hCoh : Coherent pending s)
    (hIdle : pending a = none) (hRow : s.rows.get? id = some row) (hNew : id ∉ s.locked a)
    (hGranted : ∀ {pending' t}, Coherent pending' t → pending' a = some id →
      t.holder? id = some a → Wakes pending' a t (granted t).store (granted t).woken) :
    Wakes pending a s (s.acquire a id row granted).store (s.acquire a id row granted).woken := by
  unfold acquire
  cases hFree : row.holder with
  | none =>
    have hEntered := hCoh.enter hIdle hRow hNew
    have hThen := hGranted hEntered (Function.update_self ..) (holder?_entered hRow hFree)
    exact (wakes_enter hRow).trans hThen.of_update
  | some b => exact wakes_enter hRow

/-! ## Calls on the store -/

theorem lockGranted_wakes (hCoh : Coherent pending s) (hHolder : s.holder? id = some a) :
    Wakes pending a s (s.lockGranted a id user).store (s.lockGranted a id user).woken := by
  unfold lockGranted
  cases s.wallet? id with
  | none => exact .refl pending a s
  | some w =>
    simp only
    split
    · exact .of_rows rfl
    · exact wakes_release (hCoh.front hHolder)

theorem addToCopy_wakes (w : Wallet) :
    Wakes pending a s (s.addToCopy a w amount now).store (s.addToCopy a w amount now).woken := by
  unfold addToCopy
  cases w.adjust amount now <;> exact .of_rows rfl

theorem addWithinGranted_wakes : Wakes pending a s (s.addWithinGranted a id amount now).store
    (s.addWithinGranted a id amount now).woken := by
  unfold addWithinGranted
  cases s.wallet? id with
  | none => exact .refl pending a s
  | some w =>
    have hFirst : Wakes pending a s (s.checkOut a w) [] := .of_rows rfl
    exact hFirst.trans (addToCopy_wakes w)

theorem addGranted_wakes (hCoh : Coherent pending s) (hHolder : s.holder? id = some a) :
    Wakes pending a s (s.addGranted id amount now).store (s.addGranted id amount now).woken := by
  have hFront := hCoh.front hHolder
  unfold addGranted
  cases s.wallet? id with
  | none => exact .refl pending a s
  | some w =>
    cases hAdjust : w.adjust amount now with
    | error e =>
      simp only [hAdjust]
      exact wakes_release hFront
    | ok w' =>
      simp only [hAdjust]
      have hFirst : Wakes pending a s (s.publish w') [] := wakes_publishAll [w']
      exact hFirst.trans (wakes_release (hFront.publish w'))

theorem lock_wakes (hCoh : Coherent pending s) (hIdle : pending a = none) :
    Wakes pending a s (s.lock a id user).store (s.lock a id user).woken := by
  unfold lock
  cases hCopy : s.copy? a id with
  | some w => exact .refl pending a s
  | none =>
    cases hRow : s.rows.get? id with
    | none => exact .refl pending a s
    | some row =>
      simp only
      split
      · exact acquire_wakes hCoh hIdle hRow (copy?_eq_none_iff.mp hCopy)
          fun hCoh' _ hHolder => lockGranted_wakes hCoh' hHolder
      · exact .refl pending a s

theorem addWithin_wakes (hCoh : Coherent pending s) (hIdle : pending a = none) :
    Wakes pending a s (s.addWithin a id amount now).store
      (s.addWithin a id amount now).woken := by
  unfold addWithin
  split
  · exact .of_rows rfl
  · cases hCopy : s.copy? a id with
    | some w => exact addToCopy_wakes w
    | none =>
      cases hRow : s.rows.get? id with
      | none => exact .refl pending a s
      | some row =>
        exact acquire_wakes hCoh hIdle hRow (copy?_eq_none_iff.mp hCopy)
          fun _ _ _ => addWithinGranted_wakes

theorem add_wakes (hCoh : Coherent pending s) (hIdle : pending a = none) (hNew : id ∉ s.locked a) :
    Wakes pending a s (s.add a id amount now).store (s.add a id amount now).woken := by
  unfold add
  cases hRow : s.rows.get? id with
  | none => exact .refl pending a s
  | some row =>
    exact acquire_wakes hCoh hIdle hRow hNew fun hCoh' _ hHolder => addGranted_wakes hCoh' hHolder

theorem insert_wakes {w : Wallet} (hInsert : s.insert w = .ok s') :
    Wakes pending a s s' [] := by
  obtain ⟨hNone, hGet, -⟩ := insert_eq_ok hInsert
  refine .of_same fun b x _ => ?_
  unfold holder?
  rw [hGet]
  split
  · next hx =>
    subst hx
    simp [hNone, Row.free]
  · rfl

theorem Coherent.wakes_withdraw (hCoh : Coherent pending s) (id : WalletId) :
    Wakes pending a s (s.withdraw a id).1 (s.withdraw a id).2 := by
  unfold withdraw
  split
  · next hHolds => exact wakes_release (hCoh.front (holds_iff.mp hHolds))
  · exact wakes_leave id

end Store

/-! ## Turns -/

namespace Ledger

open Store

variable {env : Surroundings} {l : Ledger} {a : Agent} {c : Call}
  {pending : Agent → Option WalletId}

theorem ofStep_wakes {s : Store} (l : Ledger) {step : Store.Step c.Answer}
    (hWakes : Wakes pending a s step.store step.woken) :
    Wakes pending a s (l.ofStep step).store (l.ofStep step).woken := by
  cases step <;> exact hWakes

theorem refuse_wakes (hCoh : l.store.Coherent pending) (reason : String) :
    Wakes pending a l.store (l.refuse a c reason).store (l.refuse a c reason).woken := by
  cases c with
  | commit | rollback => exact hCoh.wakes_drop
  | _ => exact .refl pending a l.store

theorem execute_wakes (hCoh : l.store.Coherent pending) (hIdle : pending a = none)
    {isOpen : Bool} (hFits : c.fits isOpen = true)
    (hClosed : isOpen = false → l.store.copies a = []) :
    Wakes pending a l.store (l.execute env a c).store (l.execute env a c).woken := by
  cases c with
  | begin => exact .of_rows rfl
  | commit => exact hCoh.wakes_commit
  | rollback => exact hCoh.wakes_drop
  | lock id user => exact ofStep_wakes l (lock_wakes hCoh hIdle)
  | addWithin id amount => exact ofStep_wakes l.read (addWithin_wakes hCoh hIdle)
  | add id amount =>
    refine ofStep_wakes l.read (add_wakes hCoh hIdle ?_)
    rw [locked, hClosed (by simpa [Call.fits] using hFits)]
    exact List.not_mem_nil
  | insert w =>
    cases hInsert : l.store.insert w with
    | ok s =>
      simp only [execute, hInsert]
      exact insert_wakes hInsert
    | error e =>
      simp only [execute, hInsert]
      exact .refl pending a l.store
  | claim key =>
    simp only [execute]
    cases l.keys.claim l.now key <;> exact .refl pending a l.store
  | newId =>
    simp only [execute]
    cases l.mint.next? (l.wallTime env).toMillis.toNat (env.random l.readings) <;>
      exact .refl pending a l.store
  | get | list | release | readClock => exact .refl pending a l.store

/-- A call, made to fail or answered in earnest. -/
theorem perform_wakes (hCoh : l.store.Coherent pending) (hIdle : pending a = none)
    {isOpen : Bool} (hFits : c.fits isOpen = true)
    (hClosed : isOpen = false → l.store.copies a = []) :
    Wakes pending a l.store (l.perform env a c).store (l.perform env a c).woken := by
  obtain ⟨l', hStore, hEarnest | ⟨reason, hRefused⟩⟩ := perform_eq env l a c
  · rw [hEarnest, ← hStore]
    rw [← hStore] at hCoh hClosed
    exact execute_wakes hCoh hIdle hFits hClosed
  · rw [hRefused, ← hStore]
    rw [← hStore] at hCoh
    exact refuse_wakes hCoh reason

/-- The rest of a call whose agent has been given the row it waited for. -/
theorem resume_wakes {id : WalletId} (hCoh : l.store.Coherent pending) (hRow : c.row? = some id)
    (hHolder : l.store.holder? id = some a) :
    Wakes pending a l.store (l.resume env a c).store (l.resume env a c).woken := by
  cases c with
  | lock wallet user =>
    obtain rfl := Option.some.inj hRow
    exact ofStep_wakes l (lockGranted_wakes hCoh hHolder)
  | addWithin wallet amount => exact ofStep_wakes l.read addWithinGranted_wakes
  | add wallet amount =>
    obtain rfl := Option.some.inj hRow
    exact ofStep_wakes l.read (addGranted_wakes hCoh hHolder)
  | _ => simp [Call.row?] at hRow

/-- An agent that is dropped. -/
theorem abandon_wakes (hCoh : l.store.Coherent pending) {row : Option WalletId}
    (hPending : pending a = row) :
    Wakes pending a l.store (l.abandon a row).1.store (l.abandon a row).2 := by
  unfold abandon
  cases row with
  | none =>
    have hNothing : Wakes pending a l.store l.store [] := .refl pending a l.store
    exact hNothing.trans hCoh.wakes_drop
  | some id =>
    have hAfter := Moves.coherent withdraw_moves hCoh hPending
    exact (hCoh.wakes_withdraw id).trans (hAfter.wakes_drop (a := a)).of_update

end Ledger

end Purse
