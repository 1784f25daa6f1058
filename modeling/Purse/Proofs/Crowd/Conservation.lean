import Purse.Proofs.Crowd.Effects
import Purse.Proofs.Crowd.Play
import Purse.Proofs.Store.Total
import Purse.Proofs.Wallet.Adjust

/-!
# Conservation

What a command that succeeds does to the balances, in exact values. All wallets but those of the
command stay as they are. A balance changes by exactly the amount if and only if there is a decimal
of the value it should have: where there is none, the sum has been rounded. The two sides of a
transfer are rounded by themselves, so the total is conserved where neither is.

## Results

* `Run.exact_iff_representable`: the step by which a command succeeds, and the steps before it.
-/

namespace Purse

open Store

/-- What a command does to the balances, in exact values. -/
def Job.Books (s s' : Store) : Job → Prop
  | topup request => ∃ r id, request = some r ∧ r.check = .ok id ∧
    (∀ x, x ≠ id → s'.wallet? x = s.wallet? x) ∧
    (unitsOf s'.wallet? id = unitsOf s.wallet? id + r.amount.units ↔
      Decimal.Representable (unitsOf s.wallet? id + r.amount.units))
  | transfer request => ∃ r legs, request = some r ∧ r.check = .ok legs ∧
    legs.sender.wallet ≠ legs.receiver.wallet ∧
    (∀ x, x ≠ legs.sender.wallet → x ≠ legs.receiver.wallet → s'.wallet? x = s.wallet? x) ∧
    (unitsOf s'.wallet? legs.sender.wallet =
        unitsOf s.wallet? legs.sender.wallet - legs.amount.units ↔
      Decimal.Representable (unitsOf s.wallet? legs.sender.wallet - legs.amount.units)) ∧
    (unitsOf s'.wallet? legs.receiver.wallet =
        unitsOf s.wallet? legs.receiver.wallet + legs.amount.units ↔
      Decimal.Representable (unitsOf s.wallet? legs.receiver.wallet + legs.amount.units)) ∧
    (Decimal.Representable (unitsOf s.wallet? legs.sender.wallet - legs.amount.units) →
      Decimal.Representable (unitsOf s.wallet? legs.receiver.wallet + legs.amount.units) →
      s'.totalUnits = s.totalUnits)
  | other _ _ => False

namespace Store

variable {s s' : Store} {id : WalletId} {w w' : Wallet} {amount : Decimal} {now : Timestamp}
  {wallet? : WalletId → Option Wallet}

theorem unitsOf_of_wallet? (hWallet : wallet? id = some w) :
    unitsOf wallet? id = w.balance.units := by
  unfold unitsOf
  rw [hWallet]
  rfl

/-- An adjusted balance is exact if and only if there is a decimal of the exact value. -/
theorem exact_adjust_iff (hAdjust : w.adjust amount now = .ok w') :
    w'.balance.units = w.balance.units + amount.units ↔
      Decimal.Representable (w.balance.units + amount.units) :=
  Decimal.exact_add?_iff (Wallet.adjust_ok hAdjust).2.1

end Store

/-- What a command that succeeds does to the wallets, in exact values. -/
theorem Job.books_of_does {job : Job} {s s' : Store} (hDoes : job.Does s.wallet? s'.wallet?) :
    job.Books s s' := by
  cases job with
  | topup request =>
    obtain ⟨r, id, w, w', now, hSome, -, hCheck, hWallet, hAdjust, hNow⟩ := hDoes
    refine ⟨r, id, hSome, hCheck, fun x hx => ?_, ?_⟩
    · rw [hNow, Function.update_of_ne hx]
    · have hNew : s'.wallet? id = some w' := by rw [hNow, Function.update_self]
      rw [unitsOf_of_wallet? hWallet, unitsOf_of_wallet? hNew]
      exact exact_adjust_iff hAdjust
  | transfer request =>
    obtain ⟨r, legs, sender, receiver, sender', receiver', now, now', hSome, hCheck, hReady, hDebit,
      hCredit, hNow⟩ := hDoes
    have hSender : s.wallet? legs.sender.wallet = some sender := hReady.debtor.committed
    have hReceiver : s.wallet? legs.receiver.wallet = some receiver := hReady.creditor.committed
    have hDistinct : legs.sender.wallet ≠ legs.receiver.wallet := by
      rw [← hReady.debtor.id, ← hReady.creditor.id]
      exact hReady.distinct
    rw [hReady.debtor.id, hReady.creditor.id] at hNow
    have hSender' : s'.wallet? legs.sender.wallet = some sender' := by
      rw [hNow, Function.update_of_ne hDistinct, Function.update_self]
    have hReceiver' : s'.wallet? legs.receiver.wallet = some receiver' := by
      rw [hNow, Function.update_self]
    have hFalls := exact_adjust_iff hDebit
    have hRises := exact_adjust_iff hCredit
    rw [Decimal.units_neg, ← Int.sub_eq_add_neg] at hFalls
    refine ⟨r, legs, hSome, hCheck, hDistinct, fun x hx hx' => ?_, ?_, ?_, ?_⟩
    · rw [hNow, Function.update_of_ne hx', Function.update_of_ne hx]
    · rw [unitsOf_of_wallet? hSender, unitsOf_of_wallet? hSender']
      exact hFalls
    · rw [unitsOf_of_wallet? hReceiver, unitsOf_of_wallet? hReceiver']
      exact hRises
    · rw [unitsOf_of_wallet? hSender, unitsOf_of_wallet? hReceiver]
      -- nothing is rounded: what the sender loses the receiver gains
      intro hSenderFits hReceiverFits
      have hFell := hFalls.mpr hSenderFits
      have hRose := hRises.mpr hReceiverFits
      have hIds : ∀ x, (s'.wallet? x).isSome = (s.wallet? x).isSome := by
        intro x
        rw [hNow, Function.update_apply, Function.update_apply]
        split
        · next hx => rw [hx, hReceiver]; rfl
        · split
          · next hx => rw [hx, hSender]; rfl
          · rfl
      -- the two changes one after the other
      have hMid : Function.update s.wallet? legs.sender.wallet (some sender') legs.receiver.wallet =
          some receiver := by
        rw [Function.update_of_ne (Ne.symm hDistinct)]
        exact hReceiver
      have hNodup : s.rows.keys.Nodup := s.rows.nodup
      rw [totalUnits_of_isSome hIds, hNow,
        exactSum_update_wallet hNodup (mem_keys_iff.mpr (by rw [hReceiver]; rfl)) hMid,
        exactSum_update_wallet hNodup (mem_keys_iff.mpr (by rw [hSender]; rfl)) hSender,
        ← totalUnits_eq]
      omega
  | other program hOrderly => exact hDoes

namespace Crowd

variable {env : Surroundings} {s s' : Crowd} {a : Agent} {e : Event} {trace : List Event}
  {jobs : Agent → Job} {l : Ledger} {reply : Reply}

/-- A command is not done, and then it is, with success. By that step it leaves all wallets as they
are but its own, and a balance changes by exactly the amount if and only if there is a decimal of the
value that it should have; by the steps before, it has changed no committed wallet. -/
theorem Run.exact_iff_representable (hResting : l.store.Resting)
    (hRun : Run env (start jobs l) trace s) (hStep : Step env s e s')
    (hCommand : (jobs a).isCommand = true) (hBusy : (s.threads a).isEnded = false)
    (hEnded : s'.threads a = .ended (.result (.ok reply))) :
    (jobs a).Books s.ledger.store s'.ledger.store ∧
    ∀ {before after s₁ e₁ s₂}, Run env (start jobs l) before s₁ → Step env s₁ e₁ s₂ →
      Run env s₂ after s → e₁.agent? = some a →
      ∀ id, s₂.ledger.store.wallet? id = s₁.ledger.store.wallet? id := by
  have hStart := sound_start hResting jobs
  have hSound := hRun.sound hStart
  refine ⟨?_, ?_⟩
  · have hAgent : e.agent? = some a := by
      by_contra hNot
      rw [(hStep.frame hSound hNot).1] at hEnded
      rw [hEnded] at hBusy
      simp [Thread.isEnded] at hBusy
    rcases hStep.command hSound (hRun.along hResting) hCommand hAgent with hQuiet | hSucceeds
    · exact absurd hEnded (hQuiet.unfinished reply)
    · exact Job.books_of_does hSucceeds.does
  · intro before after s₁ e₁ s₂ hBefore hStep₁ hAfter hAgent
    have hSound₁ := hBefore.sound hStart
    rcases hStep₁.command hSound₁ (hBefore.along hResting) hCommand hAgent with hQuiet | hSucceeds
    · exact hStep₁.wallet?_eq hSound₁ hQuiet.quiet
    · -- had it succeeded, it would have been done
      rw [hAfter.ended (hStep₁.sound hSound₁) hSucceeds.ended] at hBusy
      simp [Thread.isEnded] at hBusy

/-- A cent sent to a wallet so full that its balance has no place left for cents: the transfer
succeeds, the cent leaves the sender, and the receiver has what it had, as no decimal has the value
that it should have. The total has fallen. -/
theorem cent_is_lost :
    let cent : Decimal := { negative := false, mantissa := 1, scale := 2 }
    let before := (play stillness [0, 0, 0, 0, 0]
      (duo (coins 1) (coins 7000000000000000000000000000) [between 1 2 cent])).2
    let after := (play stillness [0] before).2
    let unitsOf (s : Crowd) (n : Nat) := Store.unitsOf s.ledger.store.wallet? (.ofNat n)
    after.threads 0 = .ended (.result (.ok .unit)) ∧
    unitsOf after 1 = unitsOf before 1 - cent.units ∧ unitsOf after 2 = unitsOf before 2 ∧
    after.ledger.store.totalUnits < before.ledger.store.totalUnits ∧
    ¬ Decimal.Representable (unitsOf before 2 + cent.units) := by
  intro cent before after unitsOf
  have hFacts : ((before.turn? stillness 0).isSome = true ∧ (before.threads 0).isEnded = false) ∧
      (after.threads 0).reply? = some .unit ∧
      (unitsOf after 1 = unitsOf before 1 - cent.units ∧ unitsOf after 2 = unitsOf before 2) ∧
      (after.ledger.store.totalUnits < before.ledger.store.totalUnits ∧
        unitsOf after 2 ≠ unitsOf before 2 + cent.units) := by
    decide +kernel
  obtain ⟨⟨hTurn, hBusy⟩, hReply, ⟨hFell, hSame⟩, hTotal, hShort⟩ := hFacts
  -- the last turn is the commit
  obtain ⟨⟨e, s'⟩, hNext⟩ := Option.isSome_iff_exists.mp hTurn
  have hAfter : after = s' := by
    show (play stillness [0] before).2 = s'
    unfold play
    simp only [hNext, play]
  have hEnded := Thread.eq_of_reply? hReply
  refine ⟨hEnded, hFell, hSame, hTotal, fun hRepresentable => hShort ?_⟩
  have hRun : Run stillness _ _ before := run_play stillness _ _
  rw [hAfter] at hEnded
  obtain ⟨⟨r, legs, hSome, hCheck, -, -, -, hRises, -⟩, -⟩ :=
    Run.exact_iff_representable (resting_duoLedger _ _) hRun (.turn hNext) rfl hBusy hEnded
  obtain rfl := Option.some.inj hSome
  obtain rfl : (⟨⟨.ofNat 1, .ofNat 1⟩, ⟨.ofNat 2, .ofNat 2⟩, cent⟩ : Legs) = legs := by
    have hLegs := congrArg Except.toOption hCheck
    exact Option.some.inj (Eq.trans (by decide +kernel) hLegs)
  rw [hAfter]
  exact hRises.mpr hRepresentable

end Crowd

end Purse
