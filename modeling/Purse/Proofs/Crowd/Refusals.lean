import Purse.Proofs.Crowd.Effects
import Purse.Proofs.Wallet.Adjust

/-!
# Why a balance is insufficient

A transfer that has locked both wallets looks at the sender's balance. If the balance covers the
amount, the debit cannot take it below zero. There is one more place where a balance is looked at, the
credit: a receiver whose balance is so far below zero that it stays there is refused as well. Whenever
a transfer is answered that a balance is insufficient, one of the two was so, at the step at which it
was seen.

## Results

* `Stage.short_of_after`: the answers after which a transfer fails for a balance.
* `Run.exists_short`: the step at which a transfer saw why it fails.
-/

namespace Purse

-- ---------------------------------------------------------------------------
-- Checked requests
-- ---------------------------------------------------------------------------

/-- No request is refused for a balance before there is one. -/
theorem Transfer.check_ne (r : Transfer) : r.check ≠ .error .insufficientBalance := by
  intro hError
  have hValidation := r.check_failsOnly _ hError
  cases hValidation

/-- At a step a transfer saw that a balance is insufficient: at its second locking read, that the
sender's is below the amount; or at the credit, that the receiver's stays below zero. -/
def Legs.Short (legs : Legs) (wallet? : WalletId → Option Wallet) (a : Agent) (e : Event) : Prop :=
  (∃ found w, e = .answered a (.lock legs.lockOrder.2.wallet legs.lockOrder.2.user) (.ok found) ∧
    wallet? legs.sender.wallet = some w ∧ w.balance.units < legs.amount.units) ∨
  (∃ w, e = .answered a (.addWithin legs.receiver.wallet legs.amount)
      (.error .insufficientBalance) ∧
    wallet? legs.receiver.wallet = some w ∧ w.balance.units + legs.amount.units < 0)

namespace Stage

variable {legs : Legs} {v v' : View} {stage : Stage} {a : Agent}

/-- Where a transfer goes on to fail, or fails, for a balance. -/
def Fails : Stage ⊕ Result Unit → Prop
  | .inl stage => stage = undoing .insufficientBalance
  | .inr result => result = .error .insufficientBalance

/-- The second lock: the sender's balance is below the amount. -/
theorem short_of_pair {first : Option Wallet} {second : Option Wallet} (hProper : legs.Proper)
    (hHolds : (lockingSecond first).Holds legs v)
    (hKeyed : ∀ {id w}, v.wallet? id = some w → w.id = id)
    (hTold : Told v v' ((lockingSecond first).call legs) (.ok second))
    (hFails : ofPair legs (pair legs first second) = undoing .insufficientBalance) :
    ∃ w, v.wallet? legs.sender.wallet = some w ∧ w.balance.units < legs.amount.units := by
  cases first with
  | none =>
    rw [ofPair_of_none (Or.inl rfl)] at hFails
    cases hFails
  | some first =>
    cases second with
    | none =>
      rw [ofPair_of_none (Or.inr rfl)] at hFails
      cases hFails
    | some second =>
      obtain ⟨hShown, hOwned, -⟩ := hTold
      obtain ⟨hSecond, hDistinct, -⟩ := owns_second hProper hHolds hKeyed hShown hOwned
      obtain ⟨sender, receiver, hPair, -, hDebtor, -, -⟩ :=
        exists_pair hHolds.2 hSecond hDistinct
      rw [hPair] at hFails
      unfold ofPair at hFails
      simp only at hFails
      split at hFails
      · next hShort => exact ⟨sender, hDebtor.committed, by simpa [Decimal.lt] using hShort⟩
      · cases hFails

/-- The credit: the receiver's balance stays below zero. -/
theorem short_of_credit {sender receiver : Wallet}
    (hHolds : (crediting sender receiver).Holds legs v)
    (hTold : Told v v' ((crediting sender receiver).call legs) (.error .insufficientBalance)) :
    receiver.id = legs.receiver.wallet ∧ ∃ w, v.wallet? legs.receiver.wallet = some w ∧
      w.balance.units + legs.amount.units < 0 := by
  obtain ⟨hReady, sender', now, hDebit, hCopies⟩ := hHolds
  obtain ⟨w, now', hShown, hAdjust⟩ := hTold.2 rfl
  rw [Legs.shown?_receiver hCopies (by rw [Store.id_of_adjust hDebit]; exact hReady.distinct)]
    at hShown
  obtain rfl := Option.some.inj hShown
  exact ⟨hReady.creditor.id, receiver, hReady.creditor.committed, Wallet.short_of_adjust hAdjust⟩

/-- A debit that is covered does not fail for the balance. -/
theorem debit_ne {sender receiver : Wallet} (hHolds : (debiting sender receiver).Holds legs v) :
    ¬ Told v v' ((debiting sender receiver).call legs) (.error .insufficientBalance) := by
  rintro ⟨-, hShort⟩
  obtain ⟨hReady, hCopies⟩ := hHolds
  obtain ⟨w, now, hShown, hAdjust⟩ := hShort rfl
  rw [Legs.shown?_sender hCopies hReady.distinct] at hShown
  obtain rfl := Option.some.inj hShown
  have hBelow := Wallet.short_of_adjust hAdjust
  have hCovered : ¬ sender.balance.units < legs.amount.units := by
    simpa [Decimal.lt] using hReady.covered
  rw [Decimal.units_neg] at hBelow
  omega

/-- If a transfer fails for a balance after an answer, it has seen why at that answer, or before. -/
theorem short_of_after {answer : Result (stage.call legs).Answer} (hProper : legs.Proper)
    (hHolds : stage.Holds legs v) (hKeyed : ∀ {id w}, v.wallet? id = some w → w.id = id)
    (hTold : Told v v' (stage.call legs) answer) (hFails : Fails (stage.after legs answer)) :
    stage = undoing .insufficientBalance ∨
      legs.Short v.wallet? a (.answered a (stage.call legs) answer) := by
  cases stage with
  | opening =>
    -- this error, and those of locks and commits, are about something else
    cases answer with
    | error e => exact absurd (Except.error.inj hFails) hTold.2
    | ok opened => cases hFails
  | lockingFirst =>
    cases answer with
    | error e => exact absurd (undoing.inj hFails) hTold.2
    | ok first => cases hFails
  | lockingSecond first =>
    cases answer with
    | error e => exact absurd (undoing.inj hFails) hTold.2
    | ok second =>
      obtain ⟨w, hWallet, hBelow⟩ := short_of_pair hProper hHolds hKeyed hTold hFails
      exact Or.inr (Or.inl ⟨second, w, rfl, hWallet, hBelow⟩)
  | debiting sender receiver =>
    cases answer with
    | error e =>
      obtain rfl := undoing.inj hFails
      exact absurd hTold (debit_ne hHolds)
    | ok debited => cases hFails
  | crediting sender receiver =>
    cases answer with
    | error e =>
      obtain rfl := undoing.inj hFails
      obtain ⟨hId, w, hWallet, hBelow⟩ := short_of_credit hHolds hTold
      refine Or.inr (Or.inr ⟨w, ?_, hWallet, hBelow⟩)
      rw [← hId]
      rfl
    | ok credited => cases hFails
  | committing sender receiver =>
    cases answer with
    | error e => exact absurd (Except.error.inj hFails) hTold.2
    | ok committed => cases hFails
  | undoing e => exact Or.inl (congrArg undoing (Except.error.inj hFails))

end Stage

-- ---------------------------------------------------------------------------
-- Runs
-- ---------------------------------------------------------------------------

/-- A transfer is somewhere along its stages, and where it fails for a balance there is a reason. -/
def Legs.Accounts (legs : Legs) (v : View) (t : Thread) (reason : Prop) : Prop :=
  t.isEnded = true ∧ (t = .ended (.result (.error .insufficientBalance)) → reason) ∨
  ∃ stage : Stage, t.rest? = some (stage.program legs) ∧ stage.Holds legs v ∧
    (stage = .undoing .insufficientBalance → reason)

theorem Legs.Accounts.congr {legs : Legs} {v v' : View} {t : Thread} {reason reason' : Prop}
    (hAccounts : legs.Accounts v t reason) (hCopies : v'.copies = v.copies)
    (hSame : ∀ id ∈ v.locked, v'.wallet? id = v.wallet? id) (hStill : reason → reason') :
    legs.Accounts v' t reason' := by
  obtain ⟨hEnded, hReason⟩ | ⟨stage, hRest, hHolds, hReason⟩ := hAccounts
  · exact Or.inl ⟨hEnded, hStill ∘ hReason⟩
  · exact Or.inr ⟨stage, hRest, hHolds.congr hCopies hSame, hStill ∘ hReason⟩

namespace Crowd

variable {env : Surroundings} {s s' : Crowd} {a : Agent} {e : Event} {trace : List Event}
  {jobs : Agent → Job} {l : Ledger} {legs : Legs} {reason : Prop}

/-- After its turn, a transfer that fails for a balance has seen why, by this turn or before. -/
theorem accounts_turn? (hSound : s.Sound) (hProper : legs.Proper)
    (hAccounts : legs.Accounts (s.ledger.store.view a) (s.threads a) reason)
    (hTurn : s.turn? env a = some (e, s')) :
    legs.Accounts (s'.ledger.store.view a) (s'.threads a)
      (reason ∨ legs.Short s.ledger.store.wallet? a e) := by
  obtain ⟨hEnded, -⟩ | ⟨stage, hRest, hHolds, hReason⟩ := hAccounts
  · simp [turn?_of_isEnded hEnded] at hTurn
  · obtain ⟨answer, rfl, hThread, hTold, hLeads⟩ | ⟨hStay, hStill⟩ | ⟨fault, hThread, -⟩ :=
      turn?_stage hSound hProper hTurn hRest hHolds
    · have hShort : Stage.Fails (stage.after legs answer) →
          reason ∨ legs.Short s.ledger.store.wallet? a (.answered a (stage.call legs) answer) :=
        fun hFails =>
          (Stage.short_of_after hProper hHolds hSound.coherent.keyed hTold hFails).imp_left hReason
      rw [hThread]
      cases hNext : stage.after legs answer with
      | inl stage' =>
        rw [hNext] at hLeads hShort
        exact Or.inr ⟨stage', Thread.rest?_ofProgram legs stage', hLeads, hShort⟩
      | inr result =>
        rw [hNext] at hShort
        refine Or.inl ⟨rfl, fun hFailed => hShort ?_⟩
        show result = .error .insufficientBalance
        cases result with
        | error e =>
          cases hFailed
          rfl
        | ok value => cases hFailed
    · exact Or.inr ⟨stage, hStay, hStill, Or.inl ∘ hReason⟩
    · -- an arithmetic limit is another ending
      rw [hThread]
      refine Or.inl ⟨rfl, ?_⟩
      rintro ⟨⟩

/-- There has been a step at which a transfer saw why it fails for a balance. -/
def HasSeen (env : Surroundings) (s₀ : Crowd) (legs : Legs) (a : Agent) (trace : List Event) :
    Prop :=
  ∃ before e after s, trace = before ++ e :: after ∧ Run env s₀ before s ∧
    legs.Short s.ledger.store.wallet? a e

theorem HasSeen.snoc {s₀ : Crowd} (hSeen : HasSeen env s₀ legs a trace) (e : Event) :
    HasSeen env s₀ legs a (trace ++ [e]) := by
  obtain ⟨before, e₁, after, s, rfl, hRun, hShort⟩ := hSeen
  exact ⟨before, e₁, after ++ [e], s, by simp, hRun, hShort⟩

theorem Run.accounts {r : Transfer} (hResting : l.store.Resting)
    (hRun : Run env (start jobs l) trace s) (hJob : jobs a = .transfer (some r))
    (hCheck : r.check = .ok legs) :
    legs.Accounts (s.ledger.store.view a) (s.threads a)
      (HasSeen env (start jobs l) legs a trace) := by
  have hProper := Transfer.check_ok hCheck
  induction hRun with
  | nil =>
    refine Or.inr ⟨.opening, ?_, hResting.idle a, by rintro ⟨⟩⟩
    show (Thread.ofProgram (jobs a).program).rest? = _
    rw [hJob, Job.program, transferring_some, hCheck]
    rfl
  | @snoc trace s s' e hRun hStep ih =>
    have hSound := hRun.sound (sound_start hResting jobs)
    by_cases ha : e.agent? = some a
    · cases hStep with
      | @turn _ _ b hTurn =>
        obtain rfl : b = a := Option.some.inj ((agent?_turn? hTurn).symm.trans ha)
        refine (accounts_turn? hSound hProper ih hTurn).congr rfl (fun _ _ => rfl) ?_
        rintro (hSeen | hShort)
        · exact hSeen.snoc e
        · exact ⟨trace, e, [], s, rfl, hRun, hShort⟩
      | @drop b hBusy =>
        obtain rfl : b = a := Option.some.inj ha
        have hThread : (s.dropped b).threads b = .ended (.result (.error .cancelled)) :=
          threads_goOn ..
        rw [hThread]
        exact Or.inl ⟨rfl, by rintro ⟨⟩⟩
      | aside => simp [Event.agent?] at ha
    · obtain ⟨hThread, hCopies, hRows⟩ := hStep.frame hSound ha
      rw [hThread]
      refine ih.congr hCopies (fun id hMem => ?_) fun hSeen => hSeen.snoc e
      exact (hRows id (hSound.coherent.holder?_of_locked hMem)).2

/-- A transfer that is answered that a balance is insufficient has seen why. -/
theorem Run.exists_short {request : Option Transfer} (hResting : l.store.Resting)
    (hRun : Run env (start jobs l) trace s) (hJob : jobs a = .transfer request)
    (hEnded : s.threads a = .ended (.result (.error .insufficientBalance))) :
    ∃ r legs, request = some r ∧ r.check = .ok legs ∧
      HasSeen env (start jobs l) legs a trace := by
  have hStart := sound_start hResting jobs
  -- a request that is refused from the start is refused for something else
  have hBusy : ∀ {e : LedgerError}, (start jobs l).threads a = .ended (.result (.error e)) →
      e = .insufficientBalance := by
    intro e hRefused
    rw [hRun.ended hStart hRefused] at hEnded
    cases hEnded
    rfl
  have hProgram : (start jobs l).threads a = .ofProgram (transferring request) := by
    show Thread.ofProgram (jobs a).program = _
    rw [hJob]
    rfl
  rw [hProgram] at hBusy
  cases request with
  | none => cases hBusy rfl
  | some r =>
    rw [transferring_some] at hBusy
    cases hCheck : r.check with
    | error e =>
      rw [hCheck] at hBusy
      obtain rfl := hBusy rfl
      exact absurd hCheck r.check_ne
    | ok legs =>
      refine ⟨r, legs, rfl, hCheck, ?_⟩
      obtain ⟨-, hReason⟩ | ⟨stage, hRest, -⟩ := hRun.accounts hResting hJob hCheck
      · exact hReason hEnded
      · rw [hEnded] at hRest
        cases hRest

end Crowd

end Purse
