import Purse.Proofs.Crowd.Course

/-!
# Copies and publications

What a stride does to the working copies of an agent, and what it does to the committed wallets. A
copy comes in as the committed wallet it is of, is adjusted by the agent's updates, and goes when the
transaction ends. Committed wallets change when copies are committed, when an amount is added at once
and when a wallet is stored.

## Definitions

* `updates`: the amounts by which an agent has updated a wallet within its transaction.
* `Reworked`: what became of the copies of an agent; `Published`: of the committed wallets.

## Results

* `Stride.reworked`, `Stride.published`: the cases of a stride.
-/

namespace Purse

namespace Event

/-- The amounts by which an agent has updated a wallet within its transaction, after a step. -/
def updated (a : Agent) (id : WalletId) (amounts : List Decimal) : Event → List Decimal
  | answered b .begin (.ok _) | answered b .commit _ | answered b .rollback _ | faulted b _
  | dropped b => if b = a then [] else amounts
  | answered b (.addWithin x amount) (.ok _) =>
    if b = a ∧ x = id then amounts ++ [amount] else amounts
  | _ => amounts

theorem updated_of_ne {a : Agent} {e : Event} (hAgent : e.agent? ≠ some a) (id : WalletId)
    (amounts : List Decimal) : e.updated a id amounts = amounts := by
  cases e with
  | answered b c answer =>
    have hNe : b ≠ a := fun hb => hAgent (congrArg some hb)
    cases c <;> cases answer <;> simp [updated, hNe]
  | faulted b fault =>
    have hNe : b ≠ a := fun hb => hAgent (congrArg some hb)
    simp [updated, hNe]
  | dropped b =>
    have hNe : b ≠ a := fun hb => hAgent (congrArg some hb)
    simp [updated, hNe]
  | queued | aside => rfl

end Event

/-- The amounts by which an agent has updated a wallet within its transaction, in order. -/
def updates (a : Agent) (id : WalletId) (trace : List Event) : List Decimal :=
  trace.foldl (fun amounts e => e.updated a id amounts) []

theorem updates_concat (a : Agent) (id : WalletId) (trace : List Event) (e : Event) :
    updates a id (trace ++ [e]) = e.updated a id (updates a id trace) := by
  unfold updates
  rw [List.foldl_append]
  rfl

namespace Crowd

/-- What became of the copies of an agent. -/
inductive Reworked (a : Agent) (s s' : Store) (e : Event) : Prop where
  /-- There are none, and the updates of the next transaction are still to come. -/
  | gone (hNone : s'.copies a = []) (hUpdates : ∀ id amounts, e.updated a id amounts = [])
  /-- They stay, and so do the wallets they are of. -/
  | same (hCopies : s'.copies a = s.copies a)
      (hWallets : ∀ id ∈ s.locked a, s'.wallet? id = s.wallet? id)
      (hUpdates : ∀ id amounts, e.updated a id amounts = amounts)
  /-- A committed wallet is added to them. -/
  | lent {w : Wallet} (hNew : w.id ∉ s.locked a) (hWallet : s.wallet? w.id = some w)
      (hCopies : s'.copies a = s.copies a ++ [w]) (hWallets : s'.wallet? = s.wallet?)
      (hUpdates : ∀ id amounts, e.updated a id amounts = amounts)
  /-- The wallet that the agent sees is adjusted in them. -/
  | adjusted {w w' : Wallet} {amount : Decimal} {now : Timestamp}
      (hShown : (s.view a).shown? w.id = some w) (hAdjust : w.adjust amount now = .ok w')
      (hCopies : s'.copies a =
        if w.id ∈ s.locked a then (s.copies a).map fun c => if c.id = w'.id then w' else c
        else s.copies a ++ [w'])
      (hWallets : s'.wallet? = s.wallet?)
      (hUpdates : ∀ id amounts,
        e.updated a id amounts = if w.id = id then amounts ++ [amount] else amounts)

/-- What became of the committed wallets. -/
inductive Published (s s' : Store) : Event → Prop where
  /-- They stay, in their order. -/
  | quiet {e : Event} (hWallets : s'.wallets = s.wallets) (hSame : s'.wallet? = s.wallet?) :
      Published s s' e
  /-- What a transaction showed its agent has become what they are. -/
  | committed {a : Agent} (hWallets : s'.wallet? = (s.view a).shown?) :
      Published s s' (.answered a .commit (.ok ()))
  /-- An amount was added to one of them. -/
  | added {a : Agent} {id : WalletId} {amount : Decimal} {w w' : Wallet} {now : Timestamp}
      (hWallet : s.wallet? id = some w) (hAdjust : w.adjust amount now = .ok w')
      (hWallets : s'.wallet? = Function.update s.wallet? id (some w')) :
      Published s s' (.answered a (.add id amount) (.ok ()))
  /-- A new one was stored. -/
  | inserted {a : Agent} {w : Wallet} (hNew : s.wallet? w.id = none)
      (hWallets : s'.wallet? = Function.update s.wallet? w.id (some w)) :
      Published s s' (.answered a (.insert w) (.ok ()))

variable {env : Surroundings} {s s' : Crowd} {a : Agent} {e : Event}

theorem Sound.id_of_shown? {id : WalletId} {w : Wallet} (hSound : s.Sound)
    (hShown : (s.ledger.store.view a).shown? id = some w) : w.id = id :=
  Store.id_of_shown? hSound.coherent.keyed hShown

/-! ## Storing a wallet -/

/-- A wallet that an agent has stored is in the store. -/
theorem Stride.insert_eq {w : Wallet} {u : Unit} (hSound : s.Sound)
    (hStride : Stride env s (.answered a (.insert w) (.ok u)) s') :
    s.ledger.store.insert w = .ok s'.ledger.store := by
  obtain ⟨l, woken, hStore, hExecute⟩ := hStride.executed hSound rfl
  rw [← hStore]
  unfold Ledger.execute at hExecute
  cases hInsert : l.store.insert w with
  | ok t =>
    simp only [hInsert, Outcome.replied.injEq] at hExecute
    rw [← hExecute.2.1]
  | error e => simp [hInsert] at hExecute

/-! ## The cases of a stride -/

theorem Stride.published (hStride : Stride env s e s') (hSound : s.Sound) :
    Published s.ledger.store s'.ledger.store e := by
  cases hLoud : e.isLoud with
  | false =>
    exact .quiet (hStride.wallets_eq hSound hLoud) (funext (hStride.wallet?_eq hSound hLoud))
  | true =>
    cases e with
    | answered a c answer =>
      obtain ⟨c, next, answer, hEvent, -, -, hTold⟩ | ⟨row, hEvent, -⟩ |
          ⟨⟨fault, hEvent⟩ | hEvent, -⟩ := hStride.cases hSound rfl
      · cases hEvent
        rcases answer with e | value
        · simp [Event.isLoud] at hLoud
        · cases c with
          | commit => exact .committed hTold.2
          | add id amount =>
            obtain ⟨-, w, w', now, hWallet, hAdjust, hWallets⟩ := hTold
            exact .added hWallet hAdjust hWallets
          | insert w =>
            obtain ⟨hNew, hWallets⟩ := Store.wallet?_insert (hStride.insert_eq hSound)
            exact .inserted hNew hWallets
          | _ => simp [Event.isLoud, Call.publishes] at hLoud
      · cases hEvent
      · cases hEvent
      · cases hEvent
    | queued | faulted | dropped | aside => simp [Event.isLoud] at hLoud

/-- The copies of an agent whose call was answered. -/
theorem reworked_of_answered {c : Call} {answer : Result c.Answer} (hSound : s.Sound)
    (hStride : Stride env s (.answered a c answer) s')
    (hFits : ∃ isOpen, c.fits isOpen = true ∧ (isOpen = false → s.ledger.store.copies a = []))
    (hTold : Told (s.ledger.store.view a) (s'.ledger.store.view a) c answer) :
    Reworked a s.ledger.store s'.ledger.store (.answered a c answer) := by
  have hQuiet := fun hLoud => funext (hStride.wallet?_eq hSound hLoud)
  -- most answers leave the copies and their wallets alone
  have hStays : s'.ledger.store.copies a = s.ledger.store.copies a →
      (Event.answered a c answer).isLoud = false →
      (∀ id amounts, (Event.answered a c answer).updated a id amounts = amounts) →
      Reworked a s.ledger.store s'.ledger.store (.answered a c answer) :=
    fun hCopies hLoud hUpdates =>
      .same hCopies (fun id _ => congrFun (hQuiet hLoud) id) hUpdates
  cases c with
  | begin =>
    cases answer with
    | ok opened => exact .gone hTold fun _ _ => if_pos rfl
    | error e => exact hStays hTold.1 rfl fun _ _ => rfl
  | commit =>
    cases answer with
    | ok closed => exact .gone hTold.1 fun _ _ => if_pos rfl
    | error e => exact .gone hTold.1 fun _ _ => if_pos rfl
  | rollback => cases answer <;> exact .gone hTold fun _ _ => if_pos rfl
  | lock id user =>
    rcases answer with e | _ | w
    · exact hStays hTold.1 rfl fun _ _ => rfl
    · exact hStays hTold rfl fun _ _ => rfl
    · obtain ⟨hShown, -, hCopies⟩ := hTold
      by_cases hMem : id ∈ s.ledger.store.locked a
      · exact hStays (hCopies.trans (if_pos hMem)) rfl fun _ _ => rfl
      · rw [Store.shown?_of_not_mem hMem] at hShown
        obtain rfl : w.id = id := hSound.coherent.keyed hShown
        exact .lent hMem hShown (hCopies.trans (if_neg hMem)) (hQuiet rfl) fun _ _ => rfl
  | addWithin id amount =>
    cases answer with
    | ok added =>
      obtain ⟨w, w', now, hShown, hAdjust, hCopies⟩ := hTold
      obtain rfl : w.id = id := hSound.id_of_shown? hShown
      refine .adjusted hShown hAdjust hCopies (hQuiet rfl) fun x amounts => ?_
      simp [Event.updated]
    | error e =>
      obtain hCopies | ⟨hNew, w, hWallet, hCopies⟩ := hTold.1
      · exact hStays hCopies rfl fun _ _ => rfl
      · obtain rfl : w.id = id := hSound.coherent.keyed hWallet
        exact .lent hNew hWallet hCopies (hQuiet rfl) fun _ _ => rfl
  | add id amount =>
    cases answer with
    | ok added =>
      -- there is no transaction, and so there are no copies
      obtain ⟨isOpen, hFits, hClosed⟩ := hFits
      have hNone := hClosed (by simpa [Call.fits] using hFits)
      refine .same hTold.1 (fun x hMem => absurd hMem ?_) fun _ _ => rfl
      rw [Store.locked, hNone]
      exact List.not_mem_nil
    | error e => exact hStays hTold rfl fun _ _ => rfl
  | insert w =>
    cases answer with
    | ok stored =>
      -- the stored wallet is none of those that the copies are of, as it is new
      obtain ⟨hNew, hWallets⟩ := Store.wallet?_insert (hStride.insert_eq hSound)
      refine .same hTold (fun x hMem => ?_) fun _ _ => rfl
      rw [hWallets, Function.update_of_ne]
      rintro rfl
      obtain ⟨row, hRow, -⟩ := Store.exists_row_of_holder? (hSound.coherent.holder?_of_locked hMem)
      simp [Store.wallet?_of_get? hRow] at hNew
    | error e => exact hStays hTold rfl fun _ _ => rfl
  | get | list | claim | release | newId | readClock =>
    cases answer <;> exact hStays hTold rfl fun _ _ => rfl

theorem Stride.reworked (hStride : Stride env s e s') (hSound : s.Sound) (a : Agent) :
    Reworked a s.ledger.store s'.ledger.store e := by
  by_cases hAgent : e.agent? = some a
  · obtain ⟨c, next, answer, rfl, hRest, -, hTold⟩ | ⟨row, rfl, -, hSeen⟩ | ⟨hEnd, -, hNone⟩ :=
      hStride.cases hSound hAgent
    · exact reworked_of_answered hSound hStride (hSound.orderly_rest hRest) hTold
    · have hWallets : s'.ledger.store.wallet? = s.ledger.store.wallet? :=
        congrArg View.wallet? hSeen
      exact .same (congrArg View.copies hSeen) (fun id _ => congrFun hWallets id) fun _ _ => rfl
    · refine .gone hNone fun id amounts => ?_
      rcases hEnd with ⟨fault, rfl⟩ | rfl <;> exact if_pos rfl
  · obtain ⟨-, hCopies, hHeld⟩ := hStride.frame hSound hAgent
    refine .same hCopies (fun id hMem => ?_) (Event.updated_of_ne hAgent)
    exact (hHeld id (hSound.coherent.holder?_of_locked hMem)).2

end Crowd

end Purse
