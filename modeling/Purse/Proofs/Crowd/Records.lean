import Purse.Proofs.Crowd.Isolation
import Purse.Proofs.Crowd.Solo
import Purse.Proofs.Crowd.Solvency

/-!
# Wallets on record

A commit writes whole wallets back, and copies that were read long ago, so what keeps a wallet's record
right is that its row was locked all the time. No wallet is ever removed or replaced by another one, and
nothing of it changes but the balance and the time of the last change, and these only when an update
of it is published. A deleted wallet takes no update and is locked by nobody who reads, so nothing of it
changes at all; as no wallet is ever deleted while it is stored, none is while somebody waits for it.

## Definitions

* `Wallet.Later`: a wallet as it may be found later.
* `Publishes`: a step that publishes an update of a wallet.
* `OnRecord`: all that is said of the wallets of a crowd.

## Results

* `Stride.later`: what a stride does to a wallet.
* `Course.waited`: a wallet that an agent waits to lock is the user's.
* `Course.onRecord`: the wallets of a crowd are on record, whatever course it takes.
-/

namespace Purse

/-- A wallet as it may be found later: the balance and the time of the last change may differ, and
nothing else. -/
def Wallet.Later (w w' : Wallet) : Prop :=
  w' = { w with balance := w'.balance, updatedAt := w'.updatedAt }

namespace Wallet.Later

variable {w w' w'' : Wallet}

theorem refl (w : Wallet) : w.Later w := rfl

theorem trans (hLater : w.Later w') (hLater' : w'.Later w'') : w.Later w'' := by
  unfold Later at *
  rw [hLater', hLater]

theorem isDeleted_eq (hLater : w.Later w') : w'.isDeleted = w.isDeleted := by
  rw [hLater]
  rfl

theorem isOwnedBy_eq (hLater : w.Later w') (user : UserId) :
    w'.isOwnedBy user = w.isOwnedBy user := by
  rw [hLater]
  rfl

/-- An adjusted wallet is the wallet later. -/
theorem of_adjust {amount : Decimal} {now : Timestamp} (hAdjust : w.adjust amount now = .ok w') :
    w.Later w' := by
  obtain ⟨-, -, -, hNew⟩ := adjust_ok hAdjust
  unfold Later
  rw [hNew]

end Wallet.Later

/-- Nobody owns a deleted wallet. -/
theorem Wallet.isOwnedBy_of_isDeleted {w : Wallet} (hDeleted : w.isDeleted = true) (user : UserId) :
    w.isOwnedBy user = false := by
  unfold isOwnedBy
  rw [hDeleted]
  rfl

namespace Crowd

variable {env : Surroundings} {s₀ s s' : Crowd} {a : Agent} {e : Event} {trace trace' : List Event}
  {id : WalletId} {w w' c : Wallet} {user : UserId} {jobs : Agent → Job} {l : Ledger}

/-! ## Copies without updates -/

/-- A copy is the committed wallet itself if the agent has not updated it, or if it is deleted. -/
theorem Course.copy_eq (hSound : s₀.Sound) (hResting : s₀.ledger.store.Resting)
    (hCourse : Course env s₀ trace s) (hMem : c ∈ s.ledger.store.copies a)
    (hIdle : updates a c.id trace = [] ∨ c.isDeleted = true) :
    s.ledger.store.wallet? c.id = some c := by
  induction hCourse generalizing c with
  | nil =>
    rw [hResting.idle] at hMem
    exact absurd hMem List.not_mem_nil
  | @snoc trace s s' e hCourse hStride ih =>
    have hNow := hCourse.sound hSound
    rw [updates_concat] at hIdle
    cases hStride.reworked hNow a with
    | gone hNone hUpdates =>
      rw [hNone] at hMem
      exact absurd hMem List.not_mem_nil
    | same hCopies hWallets hUpdates =>
      rw [hCopies] at hMem
      rw [hUpdates] at hIdle
      rw [hWallets _ (mem_locked_of_mem hMem)]
      exact ih hMem hIdle
    | lent hNew hWallet hCopies hWallets hUpdates =>
      rw [hCopies] at hMem
      rw [hUpdates] at hIdle
      rw [hWallets]
      rcases List.mem_append.mp hMem with hOld | hLast
      · exact ih hOld hIdle
      · rw [List.mem_singleton.mp hLast]
        exact hWallet
    | @adjusted v v' amount now hShown hAdjust hCopies hWallets hUpdates =>
      have hId : v'.id = v.id := Store.id_of_adjust hAdjust
      rw [hUpdates] at hIdle
      rw [hWallets]
      -- the copy that is adjusted has an update now, and was not deleted
      have hTouched : c ≠ v' := by
        rintro rfl
        have hLive := (Wallet.adjust_ok hAdjust).1
        rw [if_pos hId.symm, (Wallet.Later.of_adjust hAdjust).isDeleted_eq, hLive] at hIdle
        simp at hIdle
      have hOther : c ∈ s.ledger.store.copies a ∧ v.id ≠ c.id := by
        rw [hCopies] at hMem
        split at hMem
        · obtain ⟨d, hOld, hImage⟩ := List.mem_map.mp hMem
          split at hImage
          · exact absurd hImage.symm hTouched
          · next hNe =>
            obtain rfl := hImage
            rw [← hId]
            exact ⟨hOld, Ne.symm hNe⟩
        · next hNew =>
          have hOld := (List.mem_append.mp hMem).resolve_right fun hLast =>
            hTouched (List.mem_singleton.mp hLast)
          refine ⟨hOld, fun hSame => hNew ?_⟩
          rw [hSame]
          exact mem_locked_of_mem hOld
      rw [if_neg hOther.2] at hIdle
      exact ih hOther.1 hIdle

/-! ## What a stride does to a wallet -/

/-- A step that publishes an update of a wallet: an amount added at once, or the commit of a
transaction in which amounts have been added. -/
inductive Publishes (trace : List Event) (id : WalletId) : Event → Prop where
  | added (a : Agent) (amount : Decimal) : Publishes trace id (.answered a (.add id amount) (.ok ()))
  | committed (a : Agent) (hUpdates : updates a id trace ≠ []) :
    Publishes trace id (.answered a .commit (.ok ()))

/-- A wallet that a transaction shows its agent is the committed one, or that one later. -/
theorem Course.shown_later (hSound : s₀.Sound) (hResting : s₀.ledger.store.Resting)
    (hCourse : Course env s₀ trace s) (a : Agent) (hWallet : s.ledger.store.wallet? id = some w) :
    ∃ w', (s.ledger.store.view a).shown? id = some w' ∧ w.Later w' ∧
      (w' = w ∨ updates a id trace ≠ [] ∧ w.isDeleted = false) := by
  cases hCopy : s.ledger.store.copy? a id with
  | none =>
    rw [Store.shown?_of_not_mem (Store.copy?_eq_none_iff.mp hCopy)]
    exact ⟨w, hWallet, .refl w, Or.inl rfl⟩
  | some c =>
    obtain rfl : c.id = id := Store.id_of_copy? hCopy
    have hMem : c ∈ s.ledger.store.copies a := List.mem_of_find?_eq_some hCopy
    have hLater : w.Later c := by
      obtain ⟨read, -, hRead, hCopied⟩ := (hCourse.copying hResting hSound a).copied hMem
      obtain rfl : read = w := Option.some.inj (hRead.symm.trans hWallet)
      exact hCopied.others
    refine ⟨c, Store.shown?_of_copy? hCopy, hLater, ?_⟩
    by_cases hIdle : updates a c.id trace = [] ∨ c.isDeleted = true
    · have hSame := hCourse.copy_eq hSound hResting hMem hIdle
      exact Or.inl (Option.some.inj (hSame.symm.trans hWallet))
    · rw [not_or, hLater.isDeleted_eq, Bool.not_eq_true] at hIdle
      exact Or.inr hIdle

/-- A stride leaves a wallet as it is, or publishes an update of it. -/
theorem Stride.later (hSound : s₀.Sound) (hResting : s₀.ledger.store.Resting)
    (hCourse : Course env s₀ trace s) (hStride : Stride env s e s')
    (hWallet : s.ledger.store.wallet? id = some w) :
    ∃ w', s'.ledger.store.wallet? id = some w' ∧ w.Later w' ∧
      (w' = w ∨ Publishes trace id e ∧ w.isDeleted = false) := by
  cases hStride.published (hCourse.sound hSound) with
  | quiet hWallets hSame =>
    rw [hSame]
    exact ⟨w, hWallet, .refl w, Or.inl rfl⟩
  | @committed a hWallets =>
    obtain ⟨w', hShown, hLater, hSame | ⟨hUpdates, hLive⟩⟩ :=
      hCourse.shown_later hSound hResting a hWallet
    · exact ⟨w', by rw [hWallets, hShown], hLater, Or.inl hSame⟩
    · exact ⟨w', by rw [hWallets, hShown], hLater, Or.inr ⟨.committed a hUpdates, hLive⟩⟩
  | @added a x amount v v' now hHas hAdjust hWallets =>
    rw [hWallets]
    by_cases hx : id = x
    · subst hx
      obtain rfl : v = w := Option.some.inj (hHas.symm.trans hWallet)
      rw [Function.update_self]
      exact ⟨v', rfl, .of_adjust hAdjust, Or.inr ⟨.added a amount, (Wallet.adjust_ok hAdjust).1⟩⟩
    · rw [Function.update_of_ne hx]
      exact ⟨w, hWallet, .refl w, Or.inl rfl⟩
  | @inserted a v hNew hWallets =>
    have hx : id ≠ v.id := by
      rintro rfl
      rw [hNew] at hWallet
      cases hWallet
    rw [hWallets, Function.update_of_ne hx]
    exact ⟨w, hWallet, .refl w, Or.inl rfl⟩

/-- In the further course of things a wallet stays on record, and a deleted one stays as it is. -/
theorem Course.later (hSound : s₀.Sound) (hResting : s₀.ledger.store.Resting)
    (hCourse : Course env s₀ trace s) (hFurther : Course env s trace' s')
    (hWallet : s.ledger.store.wallet? id = some w) :
    ∃ w', s'.ledger.store.wallet? id = some w' ∧ w.Later w' ∧ (w' = w ∨ w.isDeleted = false) := by
  induction hFurther with
  | nil => exact ⟨w, hWallet, .refl w, Or.inl rfl⟩
  | snoc hFurther hStride ih =>
    obtain ⟨v, hNow, hLater, hOld⟩ := ih
    obtain ⟨w', hNext, hLater', hSame⟩ := hStride.later hSound hResting (hCourse.trans hFurther) hNow
    refine ⟨w', hNext, hLater.trans hLater', ?_⟩
    rcases hSame with rfl | ⟨-, hLive⟩
    · exact hOld
    · rw [hLater.isDeleted_eq] at hLive
      exact Or.inr hLive

/-! ## Locking reads -/

theorem step_of_waiting {c : Call} {step : Store.Step c.Answer} {l l' : Ledger} {row : WalletId}
    (hWaiting : l.ofStep step = .waiting row l') : ∃ t, step = .waiting row t := by
  cases step with
  | replied answer t woken => cases hWaiting
  | waiting row' t =>
    cases hWaiting
    exact ⟨t, rfl⟩

/-- A locking read waits for the user's wallets only. -/
theorem owned_of_waiting {l' : Ledger} {row : WalletId}
    (hWaiting : s.ledger.perform env a (.lock id user) = .waiting row l') :
    ∃ w, s.ledger.store.wallet? id = some w ∧ w.isOwnedBy user = true := by
  obtain ⟨l, hStore, hEarnest | ⟨reason, hRefused⟩⟩ :=
    Ledger.perform_eq env s.ledger a (.lock id user)
  · rw [hEarnest] at hWaiting
    rw [← hStore]
    have hOutcome : l.ofStep (c := .lock id user) (l.store.lock a id user) = .waiting row l' :=
      hWaiting
    obtain ⟨t, hLock⟩ := step_of_waiting hOutcome
    unfold Store.lock at hLock
    split at hLock
    · cases hLock
    · split at hLock
      · cases hLock
      · next found hRow =>
        split at hLock
        · next hOwned => exact ⟨found.committed, Store.wallet?_of_get? hRow, hOwned⟩
        · cases hLock
  · rw [hRefused] at hWaiting
    cases hWaiting

/-- An agent waits after a call if the call has to wait. -/
theorem waiting_of_after {c c' : Call} {next : Result c.Answer → Program Reply}
    {next' : Result c'.Answer → Program Reply} {outcome : Outcome c} {row : WalletId}
    (hWaiting : (s.after a next outcome).2.threads a = .waiting c' next' row) :
    ∃ l, (⟨c, outcome⟩ : Sigma Outcome) = ⟨c', .waiting row l⟩ := by
  cases outcome with
  | replied answer l woken =>
    have hThread : Thread.ofProgram (next answer) = .waiting c' next' row :=
      (threads_goOn l _).symm.trans hWaiting
    have hRow := congrArg Thread.row? hThread
    rw [Thread.row?_ofProgram] at hRow
    cases hRow
  | waiting row' l =>
    have hThread : Thread.waiting c next row' = .waiting c' next' row :=
      (threads_goOn l _).symm.trans hWaiting
    cases hThread
    exact ⟨l, rfl⟩
  | faulted fault l =>
    have hThread : Thread.ended (.fault fault) = .waiting c' next' row :=
      (threads_goOn _ _).symm.trans hWaiting
    cases hThread

/-- A locking read that has been given its row waits no more. -/
theorem resume_lock_ne {row : WalletId} {l l' : Ledger} :
    l.resume env a (.lock id user) ≠ .waiting row l' := by
  intro hWaiting
  have hOutcome : l.ofStep (c := .lock id user) (l.store.lockGranted a id user) =
    .waiting row l' := hWaiting
  obtain ⟨t, hStep⟩ := step_of_waiting hOutcome
  unfold Store.lockGranted at hStep
  split at hStep
  · cases hStep
  · split at hStep <;> cases hStep

/-- An agent that waits for a locking read after its own stride has just made the call. -/
theorem Stride.waiting (hStride : Stride env s e s') (hSound : s.Sound)
    (hAgent : e.agent? = some a) {next : Result (Call.lock id user).Answer → Program Reply}
    {row : WalletId} (hWaiting : s'.threads a = .waiting (.lock id user) next row) :
    ∃ l', s.ledger.perform env a (.lock id user) = .waiting row l' := by
  obtain ⟨c, next', answer, rfl, -, hThread, -⟩ | ⟨row', rfl, -, -⟩ | ⟨-, hThread, -⟩ :=
    hStride.cases hSound hAgent
  · -- an agent that was answered does not wait
    have hBusy := congrArg Thread.row? (hThread.symm.trans hWaiting)
    rw [Thread.row?_ofProgram] at hBusy
    cases hBusy
  · cases hStride with
    | step hStep =>
      cases hStep with
      | @turn _ _ b hTurn =>
        obtain rfl : b = a := Option.some.inj ((agent?_turn? hTurn).symm.trans hAgent)
        obtain ⟨c, next', ⟨-, hAfter⟩ | ⟨row'', -, -, hAfter⟩⟩ := turn?_eq_some hTurn
        · obtain ⟨-, rfl⟩ := Prod.mk.inj hAfter
          obtain ⟨l', hOutcome⟩ := waiting_of_after hWaiting
          obtain ⟨rfl, hOutcome⟩ := Sigma.mk.inj_iff.mp hOutcome
          exact ⟨l', eq_of_heq hOutcome⟩
        · obtain ⟨-, rfl⟩ := Prod.mk.inj hAfter
          obtain ⟨l', hOutcome⟩ := waiting_of_after hWaiting
          obtain ⟨rfl, hOutcome⟩ := Sigma.mk.inj_iff.mp hOutcome
          exact absurd (eq_of_heq hOutcome) resume_lock_ne
  · rw [hWaiting] at hThread
    cases hThread

/-- A wallet that an agent waits to lock is there, and is the user's, all the time. -/
theorem Course.waited (hResting : l.store.Resting) (hCourse : Course env (start jobs l) trace s)
    {next : Result (Call.lock id user).Answer → Program Reply} {row : WalletId}
    (hWaiting : s.threads a = .waiting (.lock id user) next row) :
    ∃ w, s.ledger.store.wallet? id = some w ∧ w.isOwnedBy user = true := by
  have hStart := sound_start hResting jobs
  induction hCourse generalizing next row with
  | nil =>
    have hBusy : (start jobs l).pending a = none := Thread.row?_ofProgram _
    rw [pending_of_waiting hWaiting] at hBusy
    cases hBusy
  | @snoc trace s s' e hCourse hStride ih =>
    have hSound := hCourse.sound hStart
    -- whoever's wallet it was before the stride, it still is
    suffices hBefore : ∃ w, s.ledger.store.wallet? id = some w ∧ w.isOwnedBy user = true by
      obtain ⟨w, hWallet, hOwned⟩ := hBefore
      obtain ⟨w', hWallet', hLater, -⟩ := hStride.later hStart hResting hCourse hWallet
      exact ⟨w', hWallet', by rw [hLater.isOwnedBy_eq, hOwned]⟩
    by_cases hAgent : e.agent? = some a
    · obtain ⟨l', hOutcome⟩ := hStride.waiting hSound hAgent hWaiting
      exact owned_of_waiting hOutcome
    · rw [(hStride.frame hSound hAgent).1] at hWaiting
      exact ih hWaiting

/-- A locking read that goes on with its row finds the wallet, and finds it the user's. -/
theorem lockGranted_eq {t : Store} (hWallet : t.wallet? id = some w)
    (hOwned : w.isOwnedBy user = true) :
    t.lockGranted a id user = .replied (.ok (some w)) (t.checkOut a w) [] := by
  unfold Store.lockGranted
  rw [hWallet]
  exact if_pos hOwned

/-- A locking read of a wallet that is shown as somebody else's, or as nobody's, locks nothing. -/
theorem lock_eq_none {t : Store}
    (hShown : ∀ w, (t.view a).shown? id = some w → w.isOwnedBy user = false) :
    t.lock a id user = .replied (.ok none) t [] := by
  unfold Store.lock
  cases hCopy : t.copy? a id with
  | some w =>
    have hNot := hShown w (Store.shown?_of_copy? hCopy)
    simp only [hNot]
    rfl
  | none =>
    rw [Store.shown?_of_not_mem (Store.copy?_eq_none_iff.mp hCopy)] at hShown
    cases hRow : t.rows.get? id with
    | none => rfl
    | some row =>
      have hNot := hShown row.committed (Store.wallet?_of_get? hRow)
      simp only [hNot]
      rfl

/-- So it is answered without a wallet, or made to fail, and leaves the store. -/
theorem perform_lock_nothing {m : Ledger} (env : Surroundings)
    (hShown : ∀ w, (m.store.view a).shown? id = some w → w.isOwnedBy user = false) :
    ∃ answer m', m.perform env a (.lock id user) = .replied answer m' [] ∧
      (∀ w : Wallet, answer ≠ .ok (some w)) ∧ m'.store = m.store := by
  obtain ⟨m', hStore, hEarnest | ⟨reason, hRefused⟩⟩ :=
    Ledger.perform_eq env m a (.lock id user)
  · have hAnswered : m'.execute env a (.lock id user) = .replied (.ok none) m' [] := by
      have hEntered : m'.execute env a (.lock id user) =
          m'.ofStep (c := .lock id user) (m'.store.lock a id user) := rfl
      rw [hEntered, lock_eq_none]
      · rfl
      · rw [hStore]
        exact hShown
    exact ⟨_, m', hEarnest.trans hAnswered, by rintro w ⟨⟩, hStore⟩
  · exact ⟨_, m', hRefused, by rintro w ⟨⟩, hStore⟩

/-- A locking read of a deleted wallet is answered without it at once, and leaves the store. -/
theorem Stride.lock_deleted (hResting : l.store.Resting)
    (hCourse : Course env (start jobs l) trace s) (hStride : Stride env s e s')
    (hAgent : e.agent? = some a) {next : Result (Call.lock id user).Answer → Program Reply}
    (hRest : (s.threads a).rest? = some (.call (.lock id user) next))
    (hWallet : s.ledger.store.wallet? id = some w) (hDeleted : w.isDeleted = true) :
    e = .dropped a ∨ ∃ answer, e = .answered a (.lock id user) answer ∧
      (∀ v : Wallet, answer ≠ .ok (some v)) ∧ s'.ledger.store = s.ledger.store := by
  have hShown : ∀ v, (s.ledger.store.view a).shown? id = some v → v.isOwnedBy user = false := by
    intro v hShown
    obtain ⟨v', hShown', hLater, -⟩ :=
      hCourse.shown_later (sound_start hResting jobs) hResting a hWallet
    obtain rfl : v = v' := Option.some.inj (hShown.symm.trans hShown')
    exact Wallet.isOwnedBy_of_isDeleted (hLater.isDeleted_eq.trans hDeleted) user
  -- nobody waits for a wallet that is deleted
  have hNotWaiting : ∀ next row, s.threads a ≠ .waiting (.lock id user) next row := by
    intro next row hWaiting
    obtain ⟨v, hWallet', hOwned⟩ := hCourse.waited hResting hWaiting
    obtain rfl : v = w := Option.some.inj (hWallet'.symm.trans hWallet)
    rw [Wallet.isOwnedBy_of_isDeleted hDeleted] at hOwned
    cases hOwned
  have hThread : s.threads a = .calling (.lock id user) next := by
    cases hThread : s.threads a with
    | calling c next' =>
      rw [hThread] at hRest
      cases hRest
      rfl
    | waiting c next' row =>
      rw [hThread] at hRest
      cases hRest
      exact absurd hThread (hNotWaiting _ _)
    | ended ending =>
      rw [hThread] at hRest
      cases hRest
  cases hStride with
  | step hStep =>
    cases hStep with
    | @turn _ _ b hTurn =>
      obtain rfl : b = a := Option.some.inj ((agent?_turn? hTurn).symm.trans hAgent)
      rw [turn?_of_calling hThread] at hTurn
      obtain ⟨answer, l', hPerform, hNone, hStore⟩ := perform_lock_nothing env hShown
      rw [hPerform] at hTurn
      obtain ⟨rfl, rfl⟩ := Prod.mk.inj (Option.some.inj hTurn)
      exact Or.inr ⟨answer, rfl, hNone, hStore⟩
    | @drop b hBusy =>
      obtain rfl : b = a := Option.some.inj hAgent
      exact Or.inl rfl
    | aside => cases hAgent
  | @giveUp b c next' row hWaiting =>
    obtain rfl : b = a := Option.some.inj hAgent
    rw [hThread] at hWaiting
    cases hWaiting

/-! ## Readers -/

/-- Nobody's list of wallets has a deleted one in it. -/
theorem Stride.ne_of_listed {listed : List Wallet} (hSound : s.Sound)
    (hStride : Stride env s (.answered a (.list user) (.ok listed)) s')
    (hWallet : s.ledger.store.wallet? id = some w) (hDeleted : w.isDeleted = true) :
    ∀ v ∈ listed, v.id ≠ id := by
  have hListed : listed = (s.ledger.store.wallets.filter (·.isOwnedBy user)).mergeSort
      fun a b => a.id.val ≤ b.id.val := hStride.reads hSound
  intro v hMem hId
  rw [hListed, List.mem_mergeSort, List.mem_filter] at hMem
  obtain ⟨hMem, hOwned⟩ := hMem
  rw [Store.wallets_eq_filterMap, List.mem_filterMap] at hMem
  obtain ⟨x, -, hThere⟩ := hMem
  obtain rfl : v.id = x := hSound.coherent.keyed hThere
  rw [hId, hWallet] at hThere
  obtain rfl := Option.some.inj hThere
  rw [Wallet.isOwnedBy_of_isDeleted hDeleted] at hOwned
  cases hOwned

/-! ## The wallets of a crowd -/

/-- The wallets of a crowd that has come to where it is by some events. -/
structure OnRecord (env : Surroundings) (trace : List Event) (s : Crowd) : Prop where
  /-- A wallet is stored under its id. -/
  keyed : ∀ {id w}, s.ledger.store.wallet? id = some w → w.id = id
  /-- A wallet that is inserted takes the place of none, and is on record. -/
  inserted : ∀ {a w s'}, Stride env s (.answered a (.insert w) (.ok ())) s' →
    s.ledger.store.wallet? w.id = none ∧ s'.ledger.store.wallet? w.id = some w
  /-- It stays there, with its balance and the time of its last change, at most, changed. -/
  kept : ∀ {id w trace' s'}, s.ledger.store.wallet? id = some w → Course env s trace' s' →
    ∃ w', s'.ledger.store.wallet? id = some w' ∧ w.Later w'
  /-- And these change only in a step that publishes an update of it. -/
  changed : ∀ {e s' id w w'}, Stride env s e s' → s.ledger.store.wallet? id = some w →
    s'.ledger.store.wallet? id = some w' → w' ≠ w → Publishes trace id e
  /-- A deleted wallet does not change at all. -/
  fixed : ∀ {id w trace' s'}, s.ledger.store.wallet? id = some w → w.isDeleted = true →
    Course env s trace' s' → s'.ledger.store.wallet? id = some w
  /-- It is in nobody's list of wallets. -/
  unlisted : ∀ {id w a user s'} {listed : List Wallet}, s.ledger.store.wallet? id = some w →
    w.isDeleted = true → Stride env s (.answered a (.list user) (.ok listed)) s' →
    ∀ v ∈ listed, v.id ≠ id
  /-- A locking read of it does not wait, and neither locks nor changes anything. -/
  unlocked : ∀ {id w a user next e s'}, s.ledger.store.wallet? id = some w → w.isDeleted = true →
    (s.threads a).rest? = some (.call (.lock id user) next) → Stride env s e s' →
    e.agent? = some a → e = .dropped a ∨ ∃ answer, e = .answered a (.lock id user) answer ∧
      (∀ v : Wallet, answer ≠ .ok (some v)) ∧ s'.ledger.store = s.ledger.store
  /-- A locking read that has waited for its row finds the wallet and finds it the user's. -/
  waited : ∀ {a id user next row}, s.threads a = .waiting (.lock id user) next row →
    ∃ w, s.ledger.store.wallet? id = some w ∧ w.isOwnedBy user = true ∧
      s.ledger.store.lockGranted a id user =
        .replied (.ok (some w)) (s.ledger.store.checkOut a w) []
  /-- So does one that is given its row at once. -/
  atOnce : ∀ {a id user row}, s.ledger.store.rows.get? id = some row →
    row.committed.isOwnedBy user = true →
    (s.ledger.store.modifyRow id (·.entered a)).lockGranted a id user = .replied
      (.ok (some row.committed))
      ((s.ledger.store.modifyRow id (·.entered a)).checkOut a row.committed) []

/-- The wallets of a crowd are on record, whatever course it takes from a resting store. -/
theorem Course.onRecord (hResting : l.store.Resting)
    (hCourse : Course env (start jobs l) trace s) : OnRecord env trace s := by
  have hStart := sound_start hResting jobs
  have hSound := hCourse.sound hStart
  refine {
    keyed := fun hWallet => hSound.coherent.keyed hWallet
    inserted := ?inserted
    kept := ?kept
    changed := ?changed
    fixed := ?fixed
    unlisted := fun hWallet hDeleted hStride => hStride.ne_of_listed hSound hWallet hDeleted
    unlocked := fun hWallet hDeleted hRest hStride hAgent =>
      hStride.lock_deleted hResting hCourse hAgent hRest hWallet hDeleted
    waited := ?waited
    atOnce := ?atOnce }
  case inserted =>
    intro a w s' hStride
    obtain ⟨hNew, hWallets⟩ := Store.wallet?_insert (hStride.insert_eq hSound)
    refine ⟨hNew, ?_⟩
    rw [hWallets, Function.update_self]
  case kept =>
    intro id w trace' s' hWallet hFurther
    obtain ⟨w', hWallet', hLater, -⟩ := hCourse.later hStart hResting hFurther hWallet
    exact ⟨w', hWallet', hLater⟩
  case changed =>
    intro e s' id w w' hStride hWallet hWallet' hChanged
    obtain ⟨v, hNow, -, hSame | ⟨hPublishes, -⟩⟩ := hStride.later hStart hResting hCourse hWallet
    · rw [hWallet'] at hNow
      exact absurd ((Option.some.inj hNow).trans hSame) hChanged
    · exact hPublishes
  case fixed =>
    intro id w trace' s' hWallet hDeleted hFurther
    obtain ⟨w', hWallet', -, hSame | hLive⟩ := hCourse.later hStart hResting hFurther hWallet
    · rw [hWallet', hSame]
    · rw [hDeleted] at hLive
      cases hLive
  case waited =>
    intro a id user next row hWaiting
    obtain ⟨w, hWallet, hOwned⟩ := hCourse.waited hResting hWaiting
    exact ⟨w, hWallet, hOwned, lockGranted_eq hWallet hOwned⟩
  case atOnce =>
    intro a id user row hRow hOwned
    refine lockGranted_eq ?_ hOwned
    exact Solo.wallet?_entered hRow

/-- The wallet of user 2, deleted. -/
def deletedWallet : Wallet := { walletOf 2 (coins 5) with deletedAt := some .epoch }

/-- A wallet is stored by hand, one is topped up, and a transfer is made from a deleted one: the first
stays as it was stored, of the second only the balance has changed, and nothing of the third. -/
theorem deleted_wallet_stays :
    let jobs := jobsOf [storing (walletOf 3 (coins 4)), into 1 (coins 3) "key",
      between 2 1 (coins 1)]
    let ledger := { Ledger.empty 0 with
      store := .ofWallets [walletOf 1 (coins 10), deletedWallet] }
    let s := (play stillness [0] (start jobs ledger)).2
    let s' := (play stillness [1, 1, 2, 2, 2, 2] s).2
    s'.ledger.store.wallet? (.ofNat 2) = some deletedWallet ∧
      (∃ w, s'.ledger.store.wallet? (.ofNat 1) = some w ∧ (walletOf 1 (coins 10)).Later w ∧
        w.balance = coins 13) ∧
      ∃ w, s'.ledger.store.wallet? (.ofNat 3) = some w ∧ (walletOf 3 (coins 4)).Later w := by
  intro jobs ledger s s'
  have hFacts : s.ledger.store.wallet? (.ofNat 1) = some (walletOf 1 (coins 10)) ∧
      s.ledger.store.wallet? (.ofNat 2) = some deletedWallet ∧
      s.ledger.store.wallet? (.ofNat 3) = some (walletOf 3 (coins 4)) ∧
      (s'.ledger.store.wallet? (.ofNat 1)).map Wallet.balance = some (coins 13) := by
    decide +kernel
  obtain ⟨hFirst, hDeleted, hStored, hBalance⟩ := hFacts
  have hResting : ledger.store.Resting := Store.resting_ofWallets _
  have hRun : Run stillness (start jobs ledger) _ s := run_play stillness _ _
  have hFurther : Run stillness s _ s' := run_play stillness _ _
  have hRecord := Course.onRecord hResting hRun.course
  obtain ⟨w, hWallet, hLater⟩ := hRecord.kept hFirst hFurther.course
  rw [hWallet] at hBalance
  exact ⟨hRecord.fixed hDeleted rfl hFurther.course,
    ⟨w, hWallet, hLater, Option.some.inj hBalance⟩, hRecord.kept hStored hFurther.course⟩

end Crowd

end Purse
