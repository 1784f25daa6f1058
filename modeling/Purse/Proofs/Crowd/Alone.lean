import Purse.Proofs.Crowd.Effects
import Purse.Proofs.Crowd.Solo

/-!
# Commands by themselves

A command that is run by itself, over wallets that nobody else is at work on, with no key in use and
nothing arranged to fail (`Store.alone?`). What a command has done in a crowd, it does by itself as
well: it succeeds, and leaves the same wallets, but for the times at which they were changed
(`Job.Does.alone?`).

## Results

* `Stage.Alone.next`: from stage to stage of a transfer by itself.
* `Job.Does.alone?`: what a command does by itself.
-/

namespace Purse

/-- A ledger over the wallets of a store, with no key in use and nothing arranged to fail. -/
def Store.ledger (s : Store) : Ledger :=
  { Ledger.empty 0 with store := { s with armed := [] } }

/-- What a job that is run by itself leaves of a store, if it succeeds. -/
def Store.alone? (env : Surroundings) (s : Store) (job : Job) : Option Store :=
  match s.ledger.drive env 0 job.program [] with
  | .ended (.ok _) l _ => some l.store
  | _ => none

-- ---------------------------------------------------------------------------
-- Transfers by themselves
-- ---------------------------------------------------------------------------

namespace Stage

open Ledger

variable {env : Surroundings} {legs : Legs} {stage stage' : Stage} {a : Agent} {l l' : Ledger}
  {wallet? : WalletId → Option Wallet} {sender receiver : Wallet}

/-- A transfer by itself stands at a stage, with the committed wallets as they were. -/
structure Alone (legs : Legs) (wallet? : WalletId → Option Wallet) (a : Agent) (l : Ledger)
    (stage : Stage) : Prop where
  solo : Solo a l.store
  unhindered : l.Unhindered
  holds : stage.Holds legs (l.store.view a)
  unchanged : l.store.wallet? = wallet?

/-- A transfer has no copies before its transaction is open. -/
theorem Holds.closed {v : View} (hHolds : stage.Holds legs v)
    (hShut : (stage.call legs).fits true = false) : v.copies = [] := by
  cases stage with
  | opening => exact hHolds
  | _ => simp [call, Call.fits] at hShut

/-- A transfer by itself goes from stage to stage. -/
theorem Alone.next {answer : Result (stage.call legs).Answer}
    (hAlone : Alone legs wallet? a l stage) (hProper : legs.Proper)
    (hPerform : l.perform env a (stage.call legs) = .replied answer l' []) (hKeeps : l.Keeps l')
    (hNext : stage.after legs answer = .inl stage') :
    Alone legs wallet? a l' stage' ∧
      l.drive env a (stage.program legs) [] = l'.drive env a (stage'.program legs) [] := by
  obtain ⟨hSolo, hFree, hHolds, hSame⟩ := hAlone
  obtain ⟨hSolo', hTold, hQuiet⟩ := hSolo.replied (stage.fits_call legs) hHolds.closed hPerform
  have hCall : stage.call legs ≠ .commit := by
    cases stage with
    | committing sender receiver => cases hNext
    | _ => rintro ⟨⟩
  have hKept := hQuiet (Crowd.isLoud_answered hCall)
  have hLeads := hHolds.after hProper hSolo.coherent.keyed hTold fun _ => hKept
  rw [hNext] at hLeads
  refine ⟨⟨hSolo', hKeeps.unhindered hFree, hLeads, hKept.trans hSame⟩, ?_⟩
  rw [stage.program_eq, drive_replied hPerform, hNext]
  rfl

/-- A wallet that is the user's is locked at once. -/
theorem Alone.locks {id : WalletId} {user : UserId} {w : Wallet}
    (hAlone : Alone legs wallet? a l stage) (hNew : id ∉ l.store.locked a)
    (hWallet : l.store.wallet? id = some w) (hOwned : w.isOwnedBy user = true)
    (env : Surroundings) :
    ∃ l', l.perform env a (.lock id user) = .replied (.ok (some w)) l' [] ∧ l.Keeps l' := by
  have hLock := exists_perform_lock hAlone.unhindered hAlone.solo id user env
  rwa [Store.shown?_of_not_mem hNew, hWallet, Option.filter_some, if_pos hOwned] at hLock

/-- An amount that the balance of a copy takes is added to it. -/
theorem Alone.adds {id : WalletId} {amount : Decimal} {w w' : Wallet} {now : Timestamp}
    (hAlone : Alone legs wallet? a l stage) (hCopy : l.store.copy? a id = some w)
    (hAdjust : w.adjust amount now = .ok w') (env : Surroundings) :
    ∃ l', l.perform env a (.addWithin id amount) = .replied (.ok ()) l' [] ∧ l.Keeps l' := by
  have hAdd := exists_perform_addWithin hAlone.unhindered hAlone.solo id amount env
  rwa [Store.shown?_of_copy? hCopy, Wallet.added_eq_ok hAdjust] at hAdd

/-- The wallets of the sender and the receiver, in the order of locking. -/
theorem exists_order {v : View} (hReady : legs.Ready v sender receiver) :
    ∃ first second, legs.lockOrder.1.Owns v first ∧ legs.lockOrder.2.Owns v second ∧
      first.id ≠ second.id ∧
      pair legs (some first) (some second) = (some sender, some receiver) := by
  obtain ⟨hDebtor, hCreditor, hDistinct, -⟩ := hReady
  unfold pair Legs.lockOrder
  split
  · exact ⟨sender, receiver, hDebtor, hCreditor, hDistinct, rfl⟩
  · exact ⟨receiver, sender, hCreditor, hDebtor, Ne.symm hDistinct, rfl⟩

/-- A transfer whose wallets are there, and cover it, gets by itself to the debit. -/
theorem Alone.debiting (hAlone : Alone legs wallet? a l .opening) (hProper : legs.Proper)
    (hReady : legs.Ready ⟨[], wallet?⟩ sender receiver) (env : Surroundings) :
    ∃ l', Alone legs wallet? a l' (.debiting sender receiver) ∧
      l.drive env a (opening.program legs) [] =
        l'.drive env a ((Stage.debiting sender receiver).program legs) [] := by
  obtain ⟨first, second, hFirst, hSecond, hDistinct, hPair⟩ := exists_order hReady
  -- the transaction is opened
  obtain ⟨l₁, hBegin, hKeeps₁⟩ := exists_perform_begin hAlone.unhindered env a
  obtain ⟨hAlone₁, hDrive₁⟩ := hAlone.next hProper hBegin hKeeps₁ rfl
  -- the first row
  have hNew₁ : legs.lockOrder.1.wallet ∉ l₁.store.locked a := by
    rw [Store.locked, show l₁.store.copies a = [] from hAlone₁.holds]
    exact List.not_mem_nil
  have hWallet₁ : l₁.store.wallet? legs.lockOrder.1.wallet = some first := by
    rw [hAlone₁.unchanged]
    exact hFirst.committed
  obtain ⟨l₂, hLock, hKeeps₂⟩ := hAlone₁.locks hNew₁ hWallet₁ hFirst.owned env
  obtain ⟨hAlone₂, hDrive₂⟩ := hAlone₁.next hProper hLock hKeeps₂ rfl
  -- the second row, which is another one
  have hNew₂ : legs.lockOrder.2.wallet ∉ l₂.store.locked a := by
    rw [Store.locked, show l₂.store.copies a = [first] from hAlone₂.holds.1, List.map_singleton,
      List.mem_singleton, ← hSecond.id]
    exact Ne.symm hDistinct
  have hWallet₂ : l₂.store.wallet? legs.lockOrder.2.wallet = some second := by
    rw [hAlone₂.unchanged]
    exact hSecond.committed
  obtain ⟨l₃, hLock', hKeeps₃⟩ := hAlone₂.locks hNew₂ hWallet₂ hSecond.owned env
  -- both wallets are at hand, and the balance covers the amount
  have hNext : (lockingSecond (some first)).after legs (.ok (some second)) =
      .inl (.debiting sender receiver) := by
    show Sum.inl (ofPair legs (pair legs (some first) (some second))) = _
    rw [hPair]
    unfold ofPair
    simp only [hReady.covered]
    rfl
  obtain ⟨hAlone₃, hDrive₃⟩ := hAlone₂.next hProper hLock' hKeeps₃ hNext
  exact ⟨l₃, hAlone₃, hDrive₁.trans (hDrive₂.trans hDrive₃)⟩

/-- A transfer whose debit and credit are possible gets from there to its end. -/
theorem Alone.ended {sender' receiver' : Wallet} {now now' : Timestamp}
    (hAlone : Alone legs wallet? a l (.debiting sender receiver)) (hProper : legs.Proper)
    (hDebit : sender.adjust legs.amount.neg now = .ok sender')
    (hCredit : receiver.adjust legs.amount now' = .ok receiver') (env : Surroundings) :
    ∃ l' woken sender'' receiver'', sender'.Alike sender'' ∧ receiver'.Alike receiver'' ∧
      l.drive env a ((Stage.debiting sender receiver).program legs) [] =
        .ended (.ok .unit) l' woken ∧
      l'.store.Resting ∧ l'.store.wallet? = Function.update
        (Function.update wallet? sender.id (some sender'')) receiver.id (some receiver'') := by
  obtain ⟨hReady, hCopies⟩ := hAlone.holds
  -- the debit
  have hCopy : l.store.copy? a sender.id = some sender := by
    rw [Store.copy?, show l.store.copies a = _ from hCopies]
    exact Legs.find?_sender hReady.distinct
  obtain ⟨l₁, hDebited, hKeeps₁⟩ := hAlone.adds hCopy hDebit env
  obtain ⟨hAlone₁, hDrive₁⟩ := hAlone.next hProper hDebited hKeeps₁ rfl
  obtain ⟨-, sender₁, now₁, hDebit₁, hCopies₁⟩ := hAlone₁.holds
  -- the credit
  have hCopy₁ : l₁.store.copy? a receiver.id = some receiver := by
    rw [Store.copy?, show l₁.store.copies a = _ from hCopies₁]
    refine Legs.find?_receiver ?_
    rw [Store.id_of_adjust hDebit₁]
    exact hReady.distinct
  obtain ⟨l₂, hCredited, hKeeps₂⟩ := hAlone₁.adds hCopy₁ hCredit env
  obtain ⟨hAlone₂, hDrive₂⟩ := hAlone₁.next hProper hCredited hKeeps₂ rfl
  obtain ⟨-, sender₂, receiver₂, now₂, now₂', hDebit₂, hCredit₂, hCopies₂⟩ := hAlone₂.holds
  -- the commit, after which the wallets are what the copies were
  obtain ⟨l₃, woken, hCommit, -⟩ := exists_perform_commit hAlone₂.unhindered env a
  obtain ⟨hSolo, ⟨hNone, hPublished⟩, -⟩ :=
    hAlone₂.solo.replied (show Call.commit.fits true = true from rfl) (by rintro ⟨⟩) hCommit
  have hDistinct : sender₂.id ≠ receiver₂.id := by
    rw [Store.id_of_adjust hDebit₂, Store.id_of_adjust hCredit₂]
    exact hReady.distinct
  refine ⟨l₃, woken, sender₂, receiver₂, ?_, ?_, ?_, hSolo.resting hNone, ?_⟩
  · obtain ⟨v, hSame, hAlike⟩ := (Wallet.Alike.refl sender).adjust_ok hDebit now₂
    rwa [← Except.ok.inj (hDebit₂.symm.trans hSame)] at hAlike
  · obtain ⟨v, hSame, hAlike⟩ := (Wallet.Alike.refl receiver).adjust_ok hCredit now₂'
    rwa [← Except.ok.inj (hCredit₂.symm.trans hSame)] at hAlike
  · refine hDrive₁.trans (hDrive₂.trans ?_)
    rw [program_eq]
    exact drive_replied hCommit _ []
  · rw [show l₃.store.wallet? = _ from hPublished, View.shown?_inOrder hCopies₂ hDistinct,
      Store.id_of_adjust hDebit₂, Store.id_of_adjust hCredit₂]
    rw [show (l₂.store.view a).wallet? = wallet? from hAlone₂.unchanged]

end Stage

-- ---------------------------------------------------------------------------
-- Jobs by themselves
-- ---------------------------------------------------------------------------

/-- Wallets under their ids, where those of one id differ in the time of their last change only. -/
def WalletsAlike (wallet? wallet?' : WalletId → Option Wallet) : Prop :=
  ∀ id, Option.Rel Wallet.Alike (wallet? id) (wallet?' id)

namespace WalletsAlike

variable {wallet? wallet?' wallet?'' : WalletId → Option Wallet} {id : WalletId} {w v : Wallet}

theorem refl (wallet? : WalletId → Option Wallet) : WalletsAlike wallet? wallet? := by
  intro id
  cases wallet? id with
  | none => exact .none
  | some w => exact .some (Wallet.Alike.refl w)

theorem exists_of_some (hAlike : WalletsAlike wallet? wallet?') (hWallet : wallet? id = some w) :
    ∃ v, wallet?' id = some v ∧ w.Alike v := by
  have hSame := hAlike id
  rw [hWallet] at hSame
  cases hOther : wallet?' id with
  | none =>
    rw [hOther] at hSame
    cases hSame
  | some v =>
    rw [hOther] at hSame
    cases hSame with
    | some hSame => exact ⟨v, rfl, hSame⟩

theorem update (hAlike : WalletsAlike wallet? wallet?') (hSame : w.Alike v) (id : WalletId) :
    WalletsAlike (Function.update wallet? id (some w)) (Function.update wallet?' id (some v)) := by
  intro x
  by_cases hx : x = id
  · subst hx
    rw [Function.update_self, Function.update_self]
    exact .some hSame
  · rw [Function.update_of_ne hx, Function.update_of_ne hx]
    exact hAlike x

theorem balance_eq (hAlike : WalletsAlike wallet? wallet?') (id : WalletId) :
    (wallet?' id).map Wallet.balance = (wallet? id).map Wallet.balance := by
  have hSame := hAlike id
  cases hWallet : wallet? id with
  | none =>
    rw [hWallet] at hSame
    cases hOther : wallet?' id with
    | none => rfl
    | some v =>
      rw [hOther] at hSame
      cases hSame
  | some w =>
    obtain ⟨v, hOther, hSame⟩ := hAlike.exists_of_some hWallet
    rw [hOther]
    exact congrArg some hSame.balance_eq

theorem isSome_eq (hAlike : WalletsAlike wallet? wallet?') (id : WalletId) :
    (wallet?' id).isSome = (wallet? id).isSome := by
  have hSame := congrArg Option.isSome (hAlike.balance_eq id)
  rwa [Option.isSome_map, Option.isSome_map] at hSame

end WalletsAlike

theorem Party.Owns.alike {p : Party} {wallet? wallet?' : WalletId → Option Wallet} {w : Wallet}
    (hOwns : p.Owns ⟨[], wallet?⟩ w) (hAlike : WalletsAlike wallet? wallet?') :
    ∃ v, p.Owns ⟨[], wallet?'⟩ v ∧ w.Alike v := by
  obtain ⟨v, hWallet, hSame⟩ := hAlike.exists_of_some hOwns.committed
  refine ⟨v, ⟨hWallet, ?_, ?_⟩, hSame⟩
  · rw [hSame.id_eq]
    exact hOwns.id
  · rw [hSame.isOwnedBy_eq]
    exact hOwns.owned

namespace Store

variable {s : Store}

theorem unhindered_ledger (s : Store) : s.ledger.Unhindered := ⟨fun _ => rfl, rfl⟩

theorem Resting.ledger (hResting : s.Resting) : s.ledger.store.Resting :=
  ⟨hResting.free, hResting.keyed, hResting.idle⟩

theorem exists_claim_ledger (s : Store) (key : String) :
    ∃ keys, s.ledger.keys.claim s.ledger.now key = .ok (false, keys) := by
  have hFree : s.ledger.keys.isLive s.ledger.now key = false := rfl
  have hInTime : s.ledger.now + s.ledger.keys.lifetime < Instant.limit := by
    show 0 + 0 < Instant.limit
    decide
  unfold Keys.claim
  rw [hFree, if_neg Bool.false_ne_true, if_pos hInTime]
  exact ⟨_, rfl⟩

end Store

namespace Job

open Ledger

variable {s : Store} {wallet? wallet?' : WalletId → Option Wallet}

/-- A top-up by itself. -/
theorem alone?_topup {r : Topup} {id : WalletId} {w w' : Wallet} {now : Timestamp}
    (hResting : s.Resting) (hKey : r.key.isEmpty = false) (hCheck : r.check = .ok id)
    (hWallet : s.wallet? id = some w) (hAdjust : w.adjust r.amount now = .ok w')
    (env : Surroundings) :
    ∃ s' w'', s.alone? env (.topup (some r)) = some s' ∧ w'.Alike w'' ∧ s'.Resting ∧
      s'.wallet? = Function.update s.wallet? id (some w'') := by
  -- the key is claimed, and the store is as it was
  obtain ⟨l₁, hClaim, hStore, hFree⟩ : ∃ l₁,
      s.ledger.perform env 0 (.claim r.key) = .replied (.ok false) l₁ [] ∧
        l₁.store = s.ledger.store ∧ l₁.Unhindered := by
    obtain ⟨keys, hFresh⟩ := s.exists_claim_ledger r.key
    obtain ⟨journal, hClaim⟩ := exists_perform_claim s.unhindered_ledger.failing r.key env 0
    rw [hFresh] at hClaim
    exact ⟨_, hClaim, rfl, s.unhindered_ledger.failing, s.unhindered_ledger.armed⟩
  have hSolo : Solo 0 l₁.store := by
    rw [hStore]
    exact .of_resting hResting.ledger 0
  have hNone : l₁.store.copies 0 = [] := by
    rw [hStore]
    exact hResting.idle 0
  have hSame : l₁.store.wallet? = s.wallet? := by
    rw [hStore]
    rfl
  have hNew : id ∉ l₁.store.locked 0 := by
    rw [Store.locked, hNone]
    exact List.not_mem_nil
  -- the amount is added
  obtain ⟨l₂, woken, hAdd⟩ : ∃ l₂ woken,
      l₁.perform env 0 (.add id r.amount) = .replied (.ok ()) l₂ woken := by
    obtain ⟨l₂, woken, hAdd, -⟩ := exists_perform_add hFree hSolo hNew r.amount env
    rw [hSame, hWallet, Wallet.added_eq_ok hAdjust] at hAdd
    exact ⟨l₂, woken, hAdd⟩
  obtain ⟨hSolo', ⟨hCopies, w₁, w₂, now₁, hWallet₁, hAdjust₁, hAdded⟩, -⟩ :=
    hSolo.replied (show (Call.add id r.amount).fits false = true from rfl) (fun _ => hNone) hAdd
  rw [show (l₁.store.view 0).wallet? = s.wallet? from hSame] at hWallet₁ hAdded
  obtain rfl : w₁ = w := Option.some.inj (hWallet₁.symm.trans hWallet)
  obtain ⟨v, hLater, hAlike⟩ := (Wallet.Alike.refl w₁).adjust_ok hAdjust now₁
  obtain rfl : v = w₂ := Except.ok.inj (hLater.symm.trans hAdjust₁)
  refine ⟨l₂.store, v, ?_, hAlike, hSolo'.resting (hCopies.trans hNone), hAdded⟩
  -- and that is the whole program
  have hApplying : r.applying = .call (.add id r.amount) fun answer =>
      .done (answer.map fun _ => .unit) := by
    unfold Topup.applying
    rw [hCheck]
  have hDrive : s.ledger.drive env 0 (.call (.claim r.key) r.claimed) [] =
      .ended (.ok .unit) l₂ woken := by
    refine (drive_replied hClaim r.claimed []).trans ?_
    show l₁.drive env 0 r.applying [] = _
    rw [hApplying]
    exact drive_replied hAdd _ []
  unfold Store.alone?
  rw [program, toppingUp_some, hKey, if_neg Bool.false_ne_true, hDrive]

/-- A transfer by itself. -/
theorem alone?_transfer {r : Transfer} {legs : Legs} {sender receiver sender' receiver' : Wallet}
    {now now' : Timestamp} (hResting : s.Resting) (hCheck : r.check = .ok legs)
    (hReady : legs.Ready ⟨[], s.wallet?⟩ sender receiver)
    (hDebit : sender.adjust legs.amount.neg now = .ok sender')
    (hCredit : receiver.adjust legs.amount now' = .ok receiver') (env : Surroundings) :
    ∃ s' sender'' receiver'', s.alone? env (.transfer (some r)) = some s' ∧
      sender'.Alike sender'' ∧ receiver'.Alike receiver'' ∧ s'.Resting ∧
      s'.wallet? = Function.update
        (Function.update s.wallet? sender.id (some sender'')) receiver.id (some receiver'') := by
  have hProper := Transfer.check_ok hCheck
  have hAlone : Stage.Alone legs s.wallet? 0 s.ledger .opening :=
    ⟨.of_resting hResting.ledger 0, s.unhindered_ledger, hResting.idle 0, rfl⟩
  obtain ⟨l₁, hAlone₁, hDrive₁⟩ := hAlone.debiting hProper hReady env
  obtain ⟨l₂, woken, sender'', receiver'', hSender, hReceiver, hDrive₂, hResting₂, hWallets⟩ :=
    hAlone₁.ended hProper hDebit hCredit env
  refine ⟨l₂.store, sender'', receiver'', ?_, hSender, hReceiver, hResting₂, hWallets⟩
  unfold Store.alone?
  rw [program, transferring_some, hCheck]
  simp only [hDrive₁.trans hDrive₂]

/-- What a command does to some wallets, it does by itself to wallets that are alike. -/
theorem Does.alone? {job : Job} (hDoes : job.Does wallet? wallet?') (hResting : s.Resting)
    (hAlike : WalletsAlike wallet? s.wallet?) (env : Surroundings) :
    ∃ s', s.alone? env job = some s' ∧ s'.Resting ∧ WalletsAlike wallet?' s'.wallet? := by
  cases job with
  | topup request =>
    obtain ⟨r, id, w, w', now, rfl, hKey, hCheck, hWallet, hAdjust, rfl⟩ := hDoes
    obtain ⟨v, hWallet', hSame⟩ := hAlike.exists_of_some hWallet
    obtain ⟨v', hAdjust', hSame'⟩ := hSame.adjust_ok hAdjust now
    obtain ⟨s', v'', hAlone, hLater, hResting', hNow⟩ :=
      alone?_topup hResting hKey hCheck hWallet' hAdjust' env
    refine ⟨s', hAlone, hResting', ?_⟩
    rw [hNow]
    exact hAlike.update (hSame'.trans hLater) id
  | transfer request =>
    obtain ⟨r, legs, sender, receiver, sender', receiver', now, now', rfl, hCheck, hReady, hDebit,
      hCredit, rfl⟩ := hDoes
    -- the parties own wallets that are alike, which are as ready as these
    obtain ⟨sender₁, hOwns, hSame⟩ := hReady.debtor.alike hAlike
    obtain ⟨receiver₁, hOwns', hSame'⟩ := hReady.creditor.alike hAlike
    have hReady₁ : legs.Ready ⟨[], s.wallet?⟩ sender₁ receiver₁ := by
      refine ⟨hOwns, hOwns', ?_, ?_⟩
      · rw [hSame.id_eq, hSame'.id_eq]
        exact hReady.distinct
      · rw [hSame.balance_eq]
        exact hReady.covered
    obtain ⟨sender₂, hDebit₁, hSame₂⟩ := hSame.adjust_ok hDebit now
    obtain ⟨receiver₂, hCredit₁, hSame₂'⟩ := hSame'.adjust_ok hCredit now'
    obtain ⟨s', sender₃, receiver₃, hAlone, hSame₃, hSame₃', hResting', hNow⟩ :=
      alone?_transfer hResting hCheck hReady₁ hDebit₁ hCredit₁ env
    refine ⟨s', hAlone, hResting', ?_⟩
    rw [hNow, hSame.id_eq, hSame'.id_eq]
    exact (hAlike.update (hSame₂.trans hSame₃) _).update (hSame₂'.trans hSame₃') _
  | other program hOrderly => exact hDoes.elim

end Job

end Purse
