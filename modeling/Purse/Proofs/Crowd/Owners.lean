import Purse.Proofs.Crowd.Solvency
import Purse.Proofs.Decimal.Monotone
import Purse.Proofs.Service.TopupCalls

/-!
# Who takes money out

Agents give commands, and now and then a wallet has less money after a step than before. A transfer
takes it from a wallet of the sender's only, as the wallet is looked up by its id and its owner. A
top-up looks its wallet up by the id alone: it asks for some user id and does nothing with it. So a
top-up below zero takes money out of any wallet, whoever gives it.

## Definitions

* `Command.job`: a command as what an agent sets out to do.
* `Command.SpendsAsOwner`: a command is a transfer from a wallet by its owner.
* `Command.Withdraws`: a command is a top-up below zero of a wallet.

## Results

* `Run.spent_or_withdrawn`: in no other way does a wallet lose money.
* `toppingUp_anybody`: the user of a top-up makes no difference to it.
-/

namespace Purse

-- ---------------------------------------------------------------------------
-- Commands as jobs
-- ---------------------------------------------------------------------------

/-- A command has one transaction at a time. -/
theorem Command.orderly (c : Command) : c.program.Orderly false := by
  refine c.program_induction (·.Orderly false) (fun _ _ => orderly_creation)
    (fun _ _ => orderly_toppingUp) (fun _ _ => orderly_transferring) ?_ ?_ ?_
  · exact fun e => rfl
  · exact fun id => ⟨rfl, fun _ => rfl⟩
  · exact fun user => ⟨rfl, fun _ => rfl⟩

namespace Command

/-- What an agent sets out to do that gives a command. -/
def job : Command → Job
  | topup request => .topup (some request)
  | transfer request => .transfer (some request)
  | c => .other c.program c.orderly

theorem program_job (c : Command) : c.job.program = c.program := by
  cases c <;> rfl

/-- The command is a transfer from the wallet, and the sender owns the wallet. -/
def SpendsAsOwner (id : WalletId) (w : Wallet) : Command → Prop
  | transfer r => WalletId.parseTrimmed? r.senderWalletId = some id ∧
      UserId.parseTrimmed? r.senderId = some w.userId
  | _ => False

/-- The command is a top-up of the wallet with an amount below zero, by some user. -/
def Withdraws (id : WalletId) : Command → Prop
  | topup r => r.Valid id ∧ r.amount.units < 0
  | _ => False

end Command

/-- The user of a top-up makes no difference to it, as long as it is the id of some user. -/
theorem toppingUp_anybody {r : Topup} {userId : String} {user other : UserId}
    (hUser : UserId.parseTrimmed? r.userId = some user)
    (hOther : UserId.parseTrimmed? userId = some other) :
    toppingUp (some { r with userId := userId }) = toppingUp (some r) := by
  have hCheck : Topup.check { r with userId := userId } = r.check := by
    have hThere := UserId.isBlankText_eq_false hUser
    have hThere' := UserId.isBlankText_eq_false hOther
    simp only [Topup.check, hThere, hThere', hUser, hOther]
  have hKey : Topup.key { r with userId := userId } = r.key := rfl
  have hApplying : Topup.applying { r with userId := userId } = r.applying := by
    unfold Topup.applying
    rw [hCheck]
    rfl
  have hClaimed : Topup.claimed { r with userId := userId } = r.claimed := by
    funext answer
    unfold Topup.claimed
    rw [hApplying]
  rw [toppingUp_some, toppingUp_some, hKey, hClaimed]

/-- What a transfer that passes its checks has for its parties. -/
theorem Transfer.legs_of_check {r : Transfer} {legs : Legs} (hCheck : r.check = .ok legs) :
    UserId.parseTrimmed? r.senderId = some legs.sender.user ∧
      UserId.parseTrimmed? r.receiverId = some legs.receiver.user ∧
      WalletId.parseTrimmed? r.senderWalletId = some legs.sender.wallet ∧
      WalletId.parseTrimmed? r.receiverWalletId = some legs.receiver.wallet ∧
      legs.amount = r.amount := by
  unfold check at hCheck
  simp only [bind, Except.bind, pure, Except.pure, throw, throwThe, MonadExceptOf.throw] at hCheck
  split at hCheck
  · cases hCheck
  split at hCheck
  · cases hCheck
  cases hSender : UserId.parseTrimmed? r.senderId with
  | none => simp [hSender, required] at hCheck
  | some sender =>
    cases hReceiver : UserId.parseTrimmed? r.receiverId with
    | none => simp [hSender, hReceiver, required] at hCheck
    | some receiver =>
      cases hFrom : WalletId.parseTrimmed? r.senderWalletId with
      | none => simp [hSender, hReceiver, hFrom, required] at hCheck
      | some senderWallet =>
        cases hInto : WalletId.parseTrimmed? r.receiverWalletId with
        | none => simp [hSender, hReceiver, hFrom, hInto, required] at hCheck
        | some receiverWallet =>
          simp only [hSender, hReceiver, hFrom, hInto, required] at hCheck
          obtain rfl := Except.ok.inj hCheck
          exact ⟨rfl, rfl, rfl, rfl, rfl⟩

-- ---------------------------------------------------------------------------
-- Commands that change no balance
-- ---------------------------------------------------------------------------

/-- Whether a call leaves the committed balances as they are. -/
def Call.keepsBalances : Call → Bool
  | .commit | .add _ _ => false
  | _ => true

theorem calls_creation_keepsBalances (request : Option NewWallet) :
    (creation request).Calls fun c => c.keepsBalances = true := by
  cases request with
  | none => trivial
  | some request =>
    rw [creation_some]
    cases request.check with
    | error e => trivial
    | ok user =>
      refine ⟨rfl, fun answer => ?_⟩
      cases answer with
      | error e => trivial
      | ok id =>
        refine ⟨rfl, fun answer => ?_⟩
        cases answer with
        | error e => trivial
        | ok now => exact ⟨rfl, fun _ => trivial⟩

/-- Only top-ups and transfers have calls that change balances. -/
theorem Command.calls_keepsBalances (c : Command) (hOther : c.job.isCommand = false) :
    c.job.program.Calls fun c => c.keepsBalances = true := by
  rw [program_job]
  refine c.program_induction (·.Calls fun c => c.keepsBalances = true)
    (fun _ _ => calls_creation_keepsBalances) ?_ ?_ ?_ ?_ ?_
  · rintro r rfl
    cases hOther
  · rintro r rfl
    cases hOther
  · exact fun e => trivial
  · exact fun id => ⟨rfl, fun _ => trivial⟩
  · exact fun user => ⟨rfl, fun _ => trivial⟩

-- ---------------------------------------------------------------------------
-- Balances that fall
-- ---------------------------------------------------------------------------

variable {id : WalletId} {w w' : Wallet}

/-- An adjusted balance falls only if the amount is below zero, even where the sum is rounded. -/
theorem Wallet.adjust_falls {amount : Decimal} {now : Timestamp}
    (hAdjust : w.adjust amount now = .ok w') (hFalls : w'.balance.units < w.balance.units) :
    amount.units < 0 := by
  by_contra hNot
  have hRises := Decimal.units_le_add? (Wallet.adjust_ok hAdjust).2.1 (by omega)
  omega

/-- A top-up or a transfer that lowers a balance is the owner's transfer from that wallet, or a
top-up below zero. -/
theorem Command.spent_or_withdrawn_of_does {c : Command} {wallet? wallet?' : WalletId → Option Wallet}
    (hDoes : c.job.Does wallet? wallet?') (hWallet : wallet? id = some w)
    (hWallet' : wallet?' id = some w') (hFalls : w'.balance.units < w.balance.units) :
    c.SpendsAsOwner id w ∨ c.Withdraws id := by
  cases c with
  | createWallet | wallet | userWallets => exact hDoes.elim
  | topup r =>
    obtain ⟨r', x, v, v', now, hSome, -, hCheck, hHas, hAdjust, hNow⟩ := hDoes
    obtain rfl := Option.some.inj hSome
    right
    rw [hNow, Function.update_apply] at hWallet'
    split at hWallet'
    · next hSame =>
      subst hSame
      obtain rfl := Option.some.inj hWallet'
      obtain rfl := Option.some.inj (hHas.symm.trans hWallet)
      exact ⟨Topup.check_eq_ok_iff.mp hCheck, Wallet.adjust_falls hAdjust hFalls⟩
    · obtain rfl := Option.some.inj (hWallet.symm.trans hWallet')
      omega
  | transfer r =>
    obtain ⟨r', legs, sender, receiver, sender', receiver', now, now', hSome, hCheck, hReady, hDebit,
      hCredit, hNow⟩ := hDoes
    obtain rfl := Option.some.inj hSome
    left
    rw [hNow, Function.update_apply, Function.update_apply] at hWallet'
    split at hWallet'
    · -- the receiver's balance does not fall: the amount is above zero
      next hSame =>
      have hReceiver : wallet? id = some receiver := by
        rw [hSame, hReady.creditor.id]
        exact hReady.creditor.committed
      obtain rfl := Option.some.inj hWallet'
      obtain rfl := Option.some.inj (hWallet.symm.trans hReceiver)
      have hBelow := Wallet.adjust_falls hCredit hFalls
      have hAbove := (Transfer.check_ok hCheck).amount
      omega
    · split at hWallet'
      · next hSame =>
        have hSender : wallet? id = some sender := by
          rw [hSame, hReady.debtor.id]
          exact hReady.debtor.committed
        obtain rfl := Option.some.inj (hWallet.symm.trans hSender)
        obtain ⟨hUser, -, hFrom, -⟩ := Transfer.legs_of_check hCheck
        have hOwned : w.userId = legs.sender.user := by
          have hOwns := hReady.debtor.owned
          simp only [Wallet.isOwnedBy, Bool.and_eq_true, beq_iff_eq] at hOwns
          exact hOwns.2
        rw [hSame, hReady.debtor.id]
        refine ⟨hFrom, ?_⟩
        rw [hUser, hOwned]
      · obtain rfl := Option.some.inj (hWallet.symm.trans hWallet')
        omega

namespace Crowd

variable {env : Surroundings} {s s' : Crowd} {e : Event} {trace : List Event} {l : Ledger}
  {commands : Agent → Command}

/-- Whenever a wallet has less money after a step than before, it is by the step of an agent whose
command is a transfer from that wallet by its owner, or a top-up of the wallet below zero. -/
theorem Run.spent_or_withdrawn (hResting : l.store.Resting)
    (hRun : Run env (start (fun a => (commands a).job) l) trace s) (hStep : Step env s e s')
    (hWallet : s.ledger.store.wallet? id = some w)
    (hWallet' : s'.ledger.store.wallet? id = some w')
    (hFalls : w'.balance.units < w.balance.units) :
    ∃ a, e.agent? = some a ∧
      ((commands a).SpendsAsOwner id w ∨ (commands a).Withdraws id) := by
  have hSound := hRun.sound (sound_start hResting _)
  have hChanged : s'.ledger.store.wallet? id ≠ s.ledger.store.wallet? id := by
    rw [hWallet, hWallet']
    rintro hSame
    obtain rfl := Option.some.inj hSame
    omega
  -- an event of which wallets have changed is an agent's
  have hLoud : e.isLoud = true := by
    by_contra hQuiet
    exact hChanged (hStep.wallet?_eq hSound (by simpa using hQuiet) id)
  obtain ⟨a, hAgent⟩ : ∃ a, e.agent? = some a := by
    cases e with
    | answered a c answer => exact ⟨a, rfl⟩
    | queued | faulted | dropped | aside => cases hLoud
  refine ⟨a, hAgent, ?_⟩
  cases hCommand : (commands a).job.isCommand with
  | true =>
    rcases hStep.command hSound (hRun.along hResting) hCommand hAgent with hQuiet | hSucceeds
    · rw [hQuiet.quiet] at hLoud
      cases hLoud
    · exact Command.spent_or_withdrawn_of_does hSucceeds.does hWallet hWallet' hFalls
  | false =>
    -- neither a top-up nor a transfer: all that it may do is to store a wallet that was not there
    have hCalls := ((hRun.course.snoc (.step hStep)).calls hResting (a := a)
      ((commands a).calls_keepsBalances hCommand)).1
    have hLast : e ∈ trace ++ [e] := List.mem_append_right _ (List.mem_singleton_self e)
    exfalso
    cases (Stride.step hStep).published hSound with
    | quiet hWallets hSame => exact hChanged (congrFun hSame id)
    | committed hWallets =>
      cases hAgent
      exact absurd (hCalls _ _ hLast) Bool.false_ne_true
    | added hHas hAdjust hWallets =>
      cases hAgent
      exact absurd (hCalls _ _ hLast) Bool.false_ne_true
    | inserted hNew hWallets =>
      rw [hWallets, Function.update_apply] at hChanged
      split at hChanged
      · next hSame =>
        rw [hSame, hNew] at hWallet
        cases hWallet
      · exact hChanged rfl

/-- User 2 takes 5 coins out of the wallet of user 1, by a top-up of -5. -/
def strangersTopup : Topup :=
  ⟨(WalletId.ofNat 1).text, (UserId.ofNat 2).text, (coins 5).neg, "key"⟩

/-- The top-up of a user who is not the owner takes money out of the wallet and succeeds. -/
theorem stranger_withdraws :
    let commands : Agent → Command := fun _ => .topup strangersTopup
    let before := (play stillness [0]
      (start (fun a => (commands a).job) (duoLedger (coins 10) (coins 10)))).2
    let after := (play stillness [0] before).2
    before.ledger.store.wallet? (.ofNat 1) = some (walletOf 1 (coins 10)) ∧
      (after.ledger.store.wallet? (.ofNat 1)).map Wallet.balance = some (coins 5) ∧
      after.threads 0 = .ended (.result (.ok .unit)) ∧
      UserId.parseTrimmed? strangersTopup.userId ≠ some (walletOf 1 (coins 10)).userId ∧
      (commands 0).Withdraws (.ofNat 1) := by
  intro commands before after
  have hFacts : (before.turn? stillness 0).isSome = true ∧
      before.ledger.store.wallet? (.ofNat 1) = some (walletOf 1 (coins 10)) ∧
      (after.ledger.store.wallet? (.ofNat 1)).map Wallet.balance = some (coins 5) ∧
      (after.threads 0).reply? = some .unit ∧
      UserId.parseTrimmed? strangersTopup.userId ≠ some (walletOf 1 (coins 10)).userId := by
    decide +kernel
  obtain ⟨hTurn, hBefore, hAfter, hReply, hStranger⟩ := hFacts
  refine ⟨hBefore, hAfter, Thread.eq_of_reply? hReply, hStranger, ?_⟩
  obtain ⟨⟨e, s'⟩, hNext⟩ := Option.isSome_iff_exists.mp hTurn
  have hPlayed : after = s' := by
    show (play stillness [0] before).2 = s'
    unfold play
    simp only [hNext, play]
  obtain ⟨v, hWallet', hBalance⟩ := Option.map_eq_some_iff.mp hAfter
  rw [hPlayed] at hWallet'
  have hRun : Run stillness _ _ before := run_play stillness _ _
  have hFalls : v.balance.units < (walletOf 1 (coins 10)).balance.units := by
    rw [hBalance]
    decide
  obtain ⟨a, -, hSpends | hWithdraws⟩ := Run.spent_or_withdrawn
    (resting_duoLedger _ _) hRun (.turn hNext) hBefore hWallet' hFalls
  · exact hSpends.elim
  · exact hWithdraws

end Crowd

end Purse
