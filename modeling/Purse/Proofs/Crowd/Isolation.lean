import Purse.Proofs.Crowd.Copies
import Purse.Proofs.Crowd.Play

/-!
# Isolation

Whatever agents do to a store in whatever order, every locked row is locked by one of them, and its
committed wallet is the one that was read when it was locked. The copy in the transaction is what the
transaction's own updates have made of that wallet, and readers outside see committed wallets only.

## Definitions

* `Borrowed`: an agent has locked a row, and has had it locked ever since.
* `CopyOf`: a wallet that some updates have made of another one.
* `Isolated`: all that is said of the transactions of a crowd.

## Results

* `Course.isolated`: crowds are isolated, whatever course they take.
-/

namespace Purse

/-- A wallet that some updates have made of another one: the balances are told by the amounts, and
the wallets differ in balance and time of change only. -/
structure CopyOf (read : Wallet) (amounts : List Decimal) (c : Wallet) : Prop where
  balance : amounts.foldlM Decimal.add? read.balance = some c.balance
  others : c = { read with balance := c.balance, updatedAt := c.updatedAt }

namespace CopyOf

variable {read c c' : Wallet} {amounts : List Decimal} {amount : Decimal} {now : Timestamp}

theorem refl (w : Wallet) : CopyOf w [] w := ⟨rfl, rfl⟩

theorem adjust (hCopy : CopyOf read amounts c) (hAdjust : c.adjust amount now = .ok c') :
    CopyOf read (amounts ++ [amount]) c' := by
  obtain ⟨-, hSum, -, hNew⟩ := Wallet.adjust_ok hAdjust
  refine ⟨?_, ?_⟩
  · rw [List.foldlM_append, hCopy.balance]
    simp [hSum]
  · rw [hNew, hCopy.others]

end CopyOf

/-- What a call outside of transactions is answered, by the committed wallets. -/
def Event.Reads (ws : List Wallet) : Event → Prop
  | .answered _ (.get id) (.ok found) => found = ws.find? (·.id = id)
  | .answered _ (.list user) (.ok listed) =>
    listed = (ws.filter (·.isOwnedBy user)).mergeSort fun a b => a.id.val ≤ b.id.val
  | _ => True

namespace Crowd

/-- An agent has locked a row when its committed wallet was `read`, and has had it locked since. -/
inductive Borrowed (env : Surroundings) (s₀ : Crowd) (a : Agent) (id : WalletId) (read : Wallet) :
    List Event → Crowd → Prop where
  | locked {trace : List Event} {s s' : Crowd} {e : Event} (hCourse : Course env s₀ trace s)
      (hStride : Stride env s e s') (hRead : s.ledger.store.wallet? id = some read)
      (hNew : id ∉ s.ledger.store.locked a) (hLocked : id ∈ s'.ledger.store.locked a) :
      Borrowed env s₀ a id read (trace ++ [e]) s'
  | kept {trace : List Event} {s s' : Crowd} {e : Event}
      (hBorrowed : Borrowed env s₀ a id read trace s) (hStride : Stride env s e s')
      (hLocked : id ∈ s'.ledger.store.locked a) : Borrowed env s₀ a id read (trace ++ [e]) s'

/-- The transactions of a crowd that has come to where it is by some events. -/
structure Isolated (env : Surroundings) (s₀ : Crowd) (trace : List Event) (s : Crowd) : Prop where
  /-- A row is locked by one agent at most. -/
  alone : ∀ {a b id}, id ∈ s.ledger.store.locked a → id ∈ s.ledger.store.locked b → a = b
  /-- The row knows by whom. -/
  holder : ∀ {a id}, id ∈ s.ledger.store.locked a → s.ledger.store.holder? id = some a
  /-- No agent has locked a row twice. -/
  nodup : ∀ a, (s.ledger.store.locked a).Nodup
  /-- The committed wallet is the one that was read when the row was locked, and the copy is what the
  agent's updates have made of it. -/
  copied : ∀ {a c}, c ∈ s.ledger.store.copies a → ∃ read, Borrowed env s₀ a c.id read trace s ∧
    s.ledger.store.wallet? c.id = some read ∧ CopyOf read (updates a c.id trace) c
  /-- Readers outside of transactions see the committed wallets. -/
  reads : ∀ {e s'}, Stride env s e s' → e.Reads s.ledger.store.wallets
  total : s.ledger.store.total? = Decimal.sum? (s.ledger.store.wallets.map Wallet.balance)
  /-- These change only when an agent commits, adds at once or stores a wallet. -/
  published : ∀ {e s'}, Stride env s e s' → Published s.ledger.store s'.ledger.store e

variable {env : Surroundings} {s₀ s s' : Crowd} {a : Agent} {e : Event} {trace : List Event}
  {c : Wallet}

theorem mem_locked_of_mem {t : Store} (hMem : c ∈ t.copies a) : c.id ∈ t.locked a :=
  List.mem_map_of_mem hMem

/-! ## Copies -/

/-- The copies are of the committed wallets, by the updates made so far; a wallet without a copy has
not been updated. -/
structure Copying (env : Surroundings) (s₀ : Crowd) (trace : List Event) (s : Crowd) (a : Agent) :
    Prop where
  copied : ∀ {c}, c ∈ s.ledger.store.copies a → ∃ read, Borrowed env s₀ a c.id read trace s ∧
    s.ledger.store.wallet? c.id = some read ∧ CopyOf read (updates a c.id trace) c
  fresh : ∀ {id}, id ∉ s.ledger.store.locked a → updates a id trace = []

/-- A copy that a stride leaves as it is, with its wallet. -/
theorem Copying.keep (hCopying : Copying env s₀ trace s a) (hStride : Stride env s e s')
    (hMem : c ∈ s.ledger.store.copies a) (hStays : c ∈ s'.ledger.store.copies a)
    (hWallet : s'.ledger.store.wallet? c.id = s.ledger.store.wallet? c.id)
    (hUpdates : updates a c.id (trace ++ [e]) = updates a c.id trace) :
    ∃ read, Borrowed env s₀ a c.id read (trace ++ [e]) s' ∧
      s'.ledger.store.wallet? c.id = some read ∧
      CopyOf read (updates a c.id (trace ++ [e])) c := by
  obtain ⟨read, hBorrowed, hRead, hCopy⟩ := hCopying.copied hMem
  refine ⟨read, hBorrowed.kept hStride (mem_locked_of_mem hStays), hWallet.trans hRead, ?_⟩
  rw [hUpdates]
  exact hCopy

/-- A stride that adds a copy, of a wallet that has none. -/
theorem Copying.append {w w' : Wallet} (hCopying : Copying env s₀ trace s a)
    (hCourse : Course env s₀ trace s) (hStride : Stride env s e s') (hId : w'.id = w.id)
    (hNew : w.id ∉ s.ledger.store.locked a) (hWallet : s.ledger.store.wallet? w.id = some w)
    (hCopies : s'.ledger.store.copies a = s.ledger.store.copies a ++ [w'])
    (hWallets : s'.ledger.store.wallet? = s.ledger.store.wallet?)
    (hOthers : ∀ id, w.id ≠ id → updates a id (trace ++ [e]) = updates a id trace)
    (hCopy : CopyOf w (updates a w.id (trace ++ [e])) w') :
    Copying env s₀ (trace ++ [e]) s' a := by
  have hLocked : s'.ledger.store.locked a = s.ledger.store.locked a ++ [w.id] := by
    rw [Store.locked, hCopies, List.map_append, List.map_singleton, hId]
    rfl
  refine ⟨fun hMem => ?_, fun hNot => ?_⟩
  · have hStays := hMem
    rw [hCopies] at hMem
    rcases List.mem_append.mp hMem with hOld | hLast
    · refine hCopying.keep hStride hOld hStays (congrFun hWallets _) (hOthers _ ?_)
      intro hSame
      rw [hSame] at hNew
      exact hNew (mem_locked_of_mem hOld)
    · obtain rfl := List.mem_singleton.mp hLast
      rw [hId, hWallets]
      exact ⟨w, .locked hCourse hStride hWallet hNew (by simp [hLocked]), hWallet, hCopy⟩
  · rw [hLocked] at hNot
    simp only [List.mem_append, List.mem_singleton, not_or] at hNot
    rw [hOthers _ (Ne.symm hNot.2)]
    exact hCopying.fresh hNot.1

/-- A stride that adjusts a copy. -/
theorem Copying.revise {w w' : Wallet} {amount : Decimal} {now : Timestamp}
    (hCopying : Copying env s₀ trace s a) (hStride : Stride env s e s')
    (hMem : w ∈ s.ledger.store.copies a) (hAdjust : w.adjust amount now = .ok w')
    (hCopies : s'.ledger.store.copies a =
      (s.ledger.store.copies a).map fun c => if c.id = w'.id then w' else c)
    (hWallets : s'.ledger.store.wallet? = s.ledger.store.wallet?)
    (hOthers : ∀ id, w.id ≠ id → updates a id (trace ++ [e]) = updates a id trace)
    (hMine : updates a w.id (trace ++ [e]) = updates a w.id trace ++ [amount]) :
    Copying env s₀ (trace ++ [e]) s' a := by
  have hId : w'.id = w.id := Store.id_of_adjust hAdjust
  have hLocked : s'.ledger.store.locked a = s.ledger.store.locked a := by
    rw [Store.locked, hCopies, List.map_map, Store.locked]
    refine List.map_congr_left fun c _ => ?_
    simp only [Function.comp_apply]
    split
    · next hSame => exact hSame.symm
    · rfl
  refine ⟨fun hStays => ?_, fun hNot => ?_⟩
  · have hImage := hStays
    rw [hCopies] at hImage
    obtain ⟨c, hOld, rfl⟩ := List.mem_map.mp hImage
    by_cases hSame : c.id = w'.id
    · -- the copy that has been adjusted
      rw [if_pos hSame, hId, hWallets, hMine]
      obtain ⟨read, hBorrowed, hRead, hCopy⟩ := hCopying.copied hMem
      refine ⟨read, hBorrowed.kept hStride ?_, hRead, hCopy.adjust hAdjust⟩
      rw [hLocked]
      exact mem_locked_of_mem hMem
    · rw [if_neg hSame] at hStays ⊢
      refine hCopying.keep hStride hOld hStays (congrFun hWallets _) (hOthers _ ?_)
      rw [← hId]
      exact Ne.symm hSame
  · rw [hLocked] at hNot
    rw [hOthers, hCopying.fresh hNot]
    rintro rfl
    exact hNot (mem_locked_of_mem hMem)

theorem Copying.stride (hCopying : Copying env s₀ trace s a) (hCourse : Course env s₀ trace s)
    (hSound : s.Sound) (hStride : Stride env s e s') : Copying env s₀ (trace ++ [e]) s' a := by
  cases hStride.reworked hSound a with
  | gone hNone hUpdates =>
    refine ⟨fun hMem => ?_, fun _ => ?_⟩
    · rw [hNone] at hMem
      exact absurd hMem List.not_mem_nil
    · rw [updates_concat, hUpdates]
  | same hCopies hWallets hUpdates =>
    refine ⟨fun hMem => ?_, fun hNot => ?_⟩
    · have hOld := hMem
      rw [hCopies] at hOld
      refine hCopying.keep hStride hOld hMem (hWallets _ (mem_locked_of_mem hOld)) ?_
      rw [updates_concat, hUpdates]
    · rw [updates_concat, hUpdates]
      refine hCopying.fresh ?_
      rw [Store.locked, ← hCopies]
      exact hNot
  | lent hNew hWallet hCopies hWallets hUpdates =>
    have hAmounts : ∀ id, updates a id (trace ++ [e]) = updates a id trace := fun id => by
      rw [updates_concat, hUpdates]
    refine hCopying.append hCourse hStride rfl hNew hWallet hCopies hWallets
      (fun id _ => hAmounts id) ?_
    rw [hAmounts, hCopying.fresh hNew]
    exact .refl _
  | @adjusted w w' amount now hShown hAdjust hCopies hWallets hUpdates =>
    have hOthers : ∀ id, w.id ≠ id → updates a id (trace ++ [e]) = updates a id trace :=
      fun id hNe => by rw [updates_concat, hUpdates, if_neg hNe]
    have hMine : updates a w.id (trace ++ [e]) = updates a w.id trace ++ [amount] := by
      rw [updates_concat, hUpdates, if_pos rfl]
    by_cases hMem : w.id ∈ s.ledger.store.locked a
    · -- what the agent sees of a wallet that it has locked is its copy
      rw [if_pos hMem] at hCopies
      obtain ⟨c, hCopy⟩ := Option.isSome_iff_exists.mp (Store.mem_locked_iff_copy?.mp hMem)
      rw [Store.shown?_of_copy? hCopy] at hShown
      obtain rfl := Option.some.inj hShown
      exact hCopying.revise hStride (List.mem_of_find?_eq_some hCopy) hAdjust hCopies hWallets
        hOthers hMine
    · rw [if_neg hMem] at hCopies
      rw [Store.shown?_of_not_mem hMem] at hShown
      refine hCopying.append hCourse hStride (Store.id_of_adjust hAdjust) hMem hShown hCopies
        hWallets hOthers ?_
      rw [hMine, hCopying.fresh hMem]
      exact (CopyOf.refl w).adjust hAdjust

theorem Course.copying (hResting : s₀.ledger.store.Resting) (hSound : s₀.Sound)
    (hCourse : Course env s₀ trace s) (a : Agent) : Copying env s₀ trace s a := by
  -- on the course: nobody has a copy at first, and a stride keeps the copies right
  induction hCourse with
  | nil =>
    refine ⟨fun hMem => ?_, fun _ => rfl⟩
    rw [hResting.idle] at hMem
    exact absurd hMem List.not_mem_nil
  | snoc hCourse hStride ih => exact ih.stride hCourse (hCourse.sound hSound) hStride

/-! ## Readers -/

/-- A call that reads is answered with what is committed. -/
theorem Stride.reads (hStride : Stride env s e s') (hSound : s.Sound) :
    e.Reads s.ledger.store.wallets := by
  unfold Event.Reads
  split
  · -- a wallet, found under its id
    next id found =>
    obtain ⟨l, woken, hStore, hExecute⟩ := hStride.executed hSound rfl
    have hFound : l.store.wallet? id = found := Except.ok.inj (Outcome.replied.inj hExecute).1
    rw [← hFound, hStore]
    exact Store.wallet?_eq_find? hSound.coherent.keyed id
  · next user listed =>
    obtain ⟨l, woken, hStore, hExecute⟩ := hStride.executed hSound rfl
    have hListed : l.store.walletsOf user = listed :=
      Except.ok.inj (Outcome.replied.inj hExecute).1
    rw [← hListed, hStore]
    rfl
  · trivial

/-- Crowds are isolated, whatever course they take from a resting store. -/
theorem Course.isolated {jobs : Agent → Job} {l : Ledger} (hResting : l.store.Resting)
    (hCourse : Course env (start jobs l) trace s) : Isolated env (start jobs l) trace s := by
  have hStart := sound_start hResting jobs
  have hSound := hCourse.sound hStart
  have hHolder : ∀ {a id}, id ∈ s.ledger.store.locked a → s.ledger.store.holder? id = some a :=
    hSound.coherent.holder?_of_locked
  exact {
    alone := fun hA hB => Option.some.inj ((hHolder hA).symm.trans (hHolder hB))
    holder := hHolder
    nodup := fun _ => hSound.coherent.nodup
    copied := (hCourse.copying hResting hStart _).copied
    reads := fun hStride => hStride.reads hSound
    total := rfl
    published := fun hStride => hStride.published hSound }

/-- Updates a wallet twice by hand and takes it all back. -/
def updatingTwice (wallet user : Nat) (first second : Decimal) : Program Reply :=
  .call .begin fun
    | .ok _ => .call (.lock (.ofNat wallet) (.ofNat user)) fun _ =>
      .call (.addWithin (.ofNat wallet) first) fun _ =>
      .call (.addWithin (.ofNat wallet) second) fun _ =>
      .call .rollback fun _ => .done (.ok .unit)
    | .error e => .done (.error e)

theorem orderly_updatingTwice (wallet user : Nat) (first second : Decimal) :
    (updatingTwice wallet user first second).Orderly false :=
  ⟨rfl, fun
    | .ok _ => ⟨rfl, fun _ => ⟨rfl, fun _ => ⟨rfl, fun _ => ⟨rfl, fun _ => rfl⟩⟩⟩⟩
    | .error _ => rfl⟩

/-- Two updates in a transaction that is still open, and a top-up that waits for it: the copy is what
the two have made of the committed wallet, which nobody has changed. -/
theorem copy_of_two_updates :
    let run := play stillness [0, 0, 0, 0, 1, 1] (duo (coins 10) (coins 10)
      [.other (updatingTwice 1 1 (coins 2) (coins 5).neg) (orderly_updatingTwice ..),
        into 1 (coins 3) "key"])
    ∃ read c, run.2.ledger.store.copies 0 = [c] ∧ c.balance = coins 7 ∧
      run.2.ledger.store.wallet? c.id = some read ∧
      CopyOf read [coins 2, (coins 5).neg] c := by
  intro run
  have hFacts : (run.2.ledger.store.copies 0).map (fun c => (c.id, c.balance)) =
        [(.ofNat 1, coins 7)] ∧
      updates 0 (.ofNat 1) run.1 = [coins 2, (coins 5).neg] := by
    decide +kernel
  have hRun : Run stillness _ run.1 run.2 := run_play stillness _ _
  have hIsolated := Course.isolated (resting_duoLedger _ _) hRun.course
  obtain ⟨c, hCopies, hHead⟩ := List.map_eq_singleton_iff.mp hFacts.1
  obtain ⟨hId, hBalance⟩ := Prod.mk.inj hHead
  obtain ⟨read, -, hRead, hCopy⟩ := hIsolated.copied (a := 0) (c := c) (by simp [hCopies])
  rw [hId, hFacts.2] at hCopy
  exact ⟨read, c, hCopies, hBalance, hRead, hCopy⟩

end Crowd

end Purse
