import Purse.Proofs.Crowd.Copies
import Purse.Proofs.Crowd.Play
import Purse.Proofs.Crowd.Solo
import Purse.Proofs.Wallet.Decision

/-!
# Decisions do not depend on rounding

Whether an update of a balance is accepted or refused follows from the exact sum, in every state that a
crowd can reach: the answer is what comes of adding the amount to the wallet that the caller is shown
(`Step.added_of_update`), unless the update was made to fail. A transfer has compared the sender's
balance with the amount before it debits it, and compares exact values as well, so the debit is never
refused.

## Definitions

* `Event.update?`: the update of a balance that a step has answered.
* `Decided`: an answer to an update that the exact sum has decided.

## Results

* `Step.added_of_update`: what an update is answered.
* `Run.decided`: the exact sum decides, and a covered debit is accepted.
-/

namespace Purse

/-! ## What an update is answered -/

/-- The update of a balance that a step has answered: the agent, the wallet, the amount, the answer. -/
def Event.update? : Event → Option (Agent × WalletId × Decimal × Result Unit)
  | .answered a (.add id amount) answer | .answered a (.addWithin id amount) answer =>
    some (a, id, amount, answer)
  | _ => none

theorem Wallet.added_eq_error_iff {w : Wallet} {amount : Decimal} {now : Timestamp}
    {e : LedgerError} : added (some w) amount now = .error e ↔ w.adjust amount now = .error e := by
  unfold added
  simp only
  cases w.adjust amount now with
  | ok w' => exact ⟨by rintro ⟨⟩, by rintro ⟨⟩⟩
  | error e' => simp [Except.map]

/-- A call on the store comes to adding an amount to a wallet that may not be there, if it is
answered. -/
def Store.Step.Adds (w? : Option Wallet) (amount : Decimal) (now : Timestamp) :
    Store.Step Unit → Prop
  | .replied answer _ _ => answer = Wallet.added w? amount now
  | .waiting _ _ => True

namespace Store

variable {s : Store} {a : Agent} {id : WalletId} {row : Row} {amount : Decimal} {now : Timestamp}
  {w? : Option Wallet}

theorem addGranted_adds (s : Store) (id : WalletId) (amount : Decimal) (now : Timestamp) :
    (s.addGranted id amount now).Adds (s.wallet? id) amount now := by
  unfold addGranted
  cases s.wallet? id with
  | none => rfl
  | some w =>
    unfold Step.Adds Wallet.added
    simp only
    cases w.adjust amount now <;> rfl

theorem addToCopy_adds (s : Store) (a : Agent) (w : Wallet) (amount : Decimal) (now : Timestamp) :
    (s.addToCopy a w amount now).Adds (some w) amount now := by
  obtain ⟨s', hAdd, -⟩ := Solo.exists_addToCopy s a w amount now
  rw [hAdd]
  rfl

theorem addWithinGranted_adds (s : Store) (a : Agent) (id : WalletId) (amount : Decimal)
    (now : Timestamp) : (s.addWithinGranted a id amount now).Adds (s.wallet? id) amount now := by
  unfold addWithinGranted
  cases s.wallet? id with
  | none => rfl
  | some w => exact addToCopy_adds _ a w amount now

theorem acquire_adds {granted : Store → Step Unit}
    (hGranted : (granted (s.modifyRow id (·.entered a))).Adds w? amount now) :
    (s.acquire a id row granted).Adds w? amount now := by
  unfold acquire
  split
  · exact hGranted
  · trivial

theorem add_adds (s : Store) (a : Agent) (id : WalletId) (amount : Decimal) (now : Timestamp) :
    (s.add a id amount now).Adds (s.wallet? id) amount now := by
  unfold add
  cases hRow : s.rows.get? id with
  | none =>
    rw [wallet?, hRow]
    rfl
  | some row =>
    refine acquire_adds ?_
    have hAdds := addGranted_adds (s.modifyRow id (·.entered a)) id amount now
    rwa [Solo.wallet?_entered hRow, ← wallet?_of_get? hRow] at hAdds

theorem addWithin_adds (hArmed : id ∉ s.armed) (a : Agent) (amount : Decimal) (now : Timestamp) :
    (s.addWithin a id amount now).Adds ((s.view a).shown? id) amount now := by
  unfold addWithin
  rw [if_neg hArmed]
  cases hCopy : s.copy? a id with
  | some w =>
    rw [shown?_of_copy? hCopy]
    exact addToCopy_adds s a w amount now
  | none =>
    rw [shown?_of_not_mem (copy?_eq_none_iff.mp hCopy)]
    cases hRow : s.rows.get? id with
    | none =>
      rw [wallet?, hRow]
      rfl
    | some row =>
      refine acquire_adds ?_
      have hAdds := addWithinGranted_adds (s.modifyRow id (·.entered a)) a id amount now
      rwa [Solo.wallet?_entered hRow, ← wallet?_of_get? hRow] at hAdds

end Store

namespace Ledger

variable {env : Surroundings} {l l' : Ledger} {a : Agent} {c : Call} {answer : Result c.Answer}
  {woken : List Agent} {id : WalletId} {amount : Decimal} {added : Result Unit}

/-- Calls are answered in earnest, unless something is arranged to fail. -/
theorem perform_earnest_or (env : Surroundings) (l : Ledger) (a : Agent) (c : Call) :
    (∃ l' : Ledger, l'.store = l.store ∧ l.perform env a c = l'.execute env a c) ∨
    (¬ l.Unhindered ∧ ∃ (l' : Ledger) (reason : String),
      l.perform env a c = l'.refuse a c reason) := by
  by_cases hFree : l.Unhindered
  · obtain ⟨journal, hPerform⟩ := hFree.exists_perform env a c
    exact Or.inl ⟨{ l with journal }, rfl, hPerform⟩
  · obtain ⟨l', hStore, hEarnest | ⟨reason, hRefused⟩⟩ := perform_eq env l a c
    · exact Or.inl ⟨l', hStore, hEarnest⟩
    · exact Or.inr ⟨hFree, l', reason, hRefused⟩

theorem answer_of_ofStep {l : Ledger} {step : Store.Step c.Answer}
    (hReplied : l.ofStep step = .replied answer l' woken) :
    ∃ s, step = .replied answer s woken := by
  cases step with
  | replied answer' s woken' =>
    cases hReplied
    exact ⟨s, rfl⟩
  | waiting row s => cases hReplied

/-- An update that is answered at once. -/
theorem added_of_perform (hUpdate : (Event.answered a c answer).update? = some (a, id, amount, added))
    (hNone : ∀ id amount, c = .add id amount → l.store.copies a = [])
    (hPerform : l.perform env a c = .replied answer l' woken) :
    (¬ l.Unhindered ∧ ∃ reason, added = .error (.internal reason)) ∨
      ∃ now, added = Wallet.added ((l.store.view a).shown? id) amount now := by
  obtain ⟨l₁, hStore, hEarnest⟩ | ⟨hHindered, l₁, reason, hRefused⟩ :=
    perform_earnest_or env l a c
  · rw [hEarnest] at hPerform
    rw [← hStore]
    cases c with
    | add x y =>
      cases hUpdate
      obtain ⟨s, hAdd⟩ := answer_of_ofStep hPerform
      have hAdds := l₁.store.add_adds a id amount (l₁.wallTime env)
      rw [hAdd] at hAdds
      have hCopies : (l₁.store.view a).copies = [] := by
        rw [hStore]
        exact hNone id amount rfl
      rw [View.shown?_of_nil hCopies]
      exact Or.inr ⟨_, hAdds⟩
    | addWithin x y =>
      cases hUpdate
      obtain ⟨s, hAdd⟩ := answer_of_ofStep hPerform
      by_cases hArmed : id ∈ l₁.store.armed
      · -- the failure that strikes is armed
        unfold Store.addWithin at hAdd
        rw [if_pos hArmed] at hAdd
        cases hAdd
        refine Or.inl ⟨fun hFree => ?_, _, rfl⟩
        rw [hStore, hFree.armed] at hArmed
        exact absurd hArmed List.not_mem_nil
      · have hAdds := Store.addWithin_adds hArmed a amount (l₁.wallTime env)
        rw [hAdd] at hAdds
        exact Or.inr ⟨_, hAdds⟩
    | _ => cases hUpdate
  · rw [hRefused] at hPerform
    cases c with
    | add | addWithin =>
      cases hUpdate
      cases hPerform
      exact Or.inl ⟨hHindered, reason, rfl⟩
    | _ => cases hUpdate

/-- An update that has waited for its row. -/
theorem added_of_resume (hUpdate : (Event.answered a c answer).update? = some (a, id, amount, added))
    (hNew : id ∉ l.store.locked a) (hResume : l.resume env a c = .replied answer l' woken) :
    ∃ now, added = Wallet.added ((l.store.view a).shown? id) amount now := by
  rw [Store.shown?_of_not_mem hNew]
  cases c with
  | add x y =>
    cases hUpdate
    obtain ⟨s, hAdd⟩ := answer_of_ofStep hResume
    have hAdds := l.store.addGranted_adds id amount (l.wallTime env)
    rw [hAdd] at hAdds
    exact ⟨_, hAdds⟩
  | addWithin x y =>
    cases hUpdate
    obtain ⟨s, hAdd⟩ := answer_of_ofStep hResume
    have hAdds := l.store.addWithinGranted_adds a id amount (l.wallTime env)
    rw [hAdd] at hAdds
    exact ⟨_, hAdds⟩
  | _ => cases hUpdate

end Ledger

theorem Thread.rest?_of_isEnded {t : Thread} (hEnded : t.isEnded = true) : t.rest? = none := by
  cases t with
  | ended ending => rfl
  | calling | waiting => cases hEnded

/-- A transfer that debits has seen that the balance covers the amount, and so is not refused. -/
theorem Stage.debit_accepted {legs : Legs} {stage : Stage} {id : WalletId} {now : Timestamp}
    {v : View} (hProper : legs.Proper) (hHolds : stage.Holds legs v)
    (hCall : stage.call legs = .addWithin id legs.amount.neg) :
    Wallet.added (v.shown? id) legs.amount.neg now = .ok () := by
  cases stage with
  | debiting sender receiver =>
    cases hCall
    obtain ⟨hReady, hCopies⟩ := hHolds
    have hOwned := hReady.debtor.owned
    have hLive : sender.isDeleted = false := by
      simp only [Wallet.isOwnedBy, Bool.and_eq_true, Bool.not_eq_true'] at hOwned
      exact hOwned.1
    have hCovered : legs.amount.units ≤ sender.balance.units := by
      simpa [Decimal.lt] using hReady.covered
    have hAmount := hProper.amount
    obtain ⟨w', hAdjust⟩ := Wallet.exists_debit hLive (by omega) hCovered now
    rw [Legs.shown?_sender hCopies hReady.distinct]
    exact Wallet.added_eq_ok hAdjust
  | crediting sender receiver =>
    -- the credit adds the amount itself, which is another one
    injection hCall with hId hSame
    have hNeg := legs.amount.units_neg
    have hAmount := hProper.amount
    rw [← hSame] at hNeg
    omega
  | _ => cases hCall

namespace Crowd

variable {env : Surroundings} {s s' : Crowd} {a : Agent} {e : Event} {trace : List Event}
  {jobs : Agent → Job} {l : Ledger} {id : WalletId} {amount : Decimal} {answer : Result Unit}
  {w : Wallet} {legs : Legs}

/-- An answer is not that of an update that was made to fail. -/
def Earnest (l : Ledger) (answer : Result Unit) : Prop :=
  l.Unhindered ∨ ∀ reason, answer ≠ .error (.internal reason)

theorem agent?_of_update? (hUpdate : e.update? = some (a, id, amount, answer)) :
    e.agent? = some a := by
  unfold Event.update? at hUpdate
  split at hUpdate <;> cases hUpdate <;> rfl

/-- An update is answered what comes of adding the amount to the wallet that its agent is shown. -/
theorem Step.added_of_update (hStep : Step env s e s') (hSound : s.Sound)
    (hUpdate : e.update? = some (a, id, amount, answer)) (hEarnest : Earnest s.ledger answer) :
    ∃ now, answer = Wallet.added ((s.ledger.store.view a).shown? id) amount now := by
  have hAgent := agent?_of_update? hUpdate
  cases hStep with
  | @turn _ _ b hTurn =>
    obtain rfl : b = a := Option.some.inj ((agent?_turn? hTurn).symm.trans hAgent)
    obtain ⟨c, next, ⟨hThread, hAfter⟩ | ⟨row, hThread, -, hAfter⟩⟩ := turn?_eq_some hTurn
    · cases hOutcome : s.ledger.perform env b c with
      | replied answer' l woken =>
        rw [hOutcome] at hAfter
        obtain ⟨rfl, -⟩ := Prod.mk.inj hAfter
        have hRest : (s.threads b).rest? = some (.call c next) := by
          rw [hThread]
          rfl
        -- who adds at once has no transaction, and so no copies
        have hNone : ∀ x y, c = .add x y → s.ledger.store.copies b = [] := by
          obtain ⟨isOpen, hOrderly, hClosed⟩ := hSound.orderly b
          rw [hThread] at hOrderly
          rintro x y rfl
          exact hClosed (by simpa [Call.fits] using hOrderly.1)
        obtain ⟨hHindered, reason, hInternal⟩ | hAdded :=
          Ledger.added_of_perform hUpdate hNone hOutcome
        · rcases hEarnest with hFree | hNot
          · exact absurd hFree hHindered
          · exact absurd hInternal (hNot reason)
        · exact hAdded
      | waiting | faulted =>
        rw [hOutcome] at hAfter
        obtain ⟨rfl, -⟩ := Prod.mk.inj hAfter
        cases hUpdate
    · cases hOutcome : s.ledger.resume env b c with
      | replied answer' l woken =>
        rw [hOutcome] at hAfter
        obtain ⟨rfl, -⟩ := Prod.mk.inj hAfter
        refine Ledger.added_of_resume hUpdate ?_ hOutcome
        have hRow : c.row? = some row := by
          obtain ⟨isOpen, hOrderly, -⟩ := hSound.orderly b
          rw [hThread] at hOrderly
          exact hOrderly.2
        have hId : c.row? = some id := by
          cases c <;> cases hUpdate <;> rfl
        obtain rfl : row = id := Option.some.inj (hRow.symm.trans hId)
        exact hSound.coherent.apart (pending_of_waiting hThread)
      | waiting | faulted =>
        rw [hOutcome] at hAfter
        obtain ⟨rfl, -⟩ := Prod.mk.inj hAfter
        cases hUpdate
  | drop => cases hUpdate
  | aside => cases hUpdate

/-- An update that is accepted has adjusted the wallet that its agent is shown. -/
theorem Step.shown?_of_update (hStep : Step env s e s') (hSound : s.Sound)
    (hUpdate : e.update? = some (a, id, amount, .ok ())) :
    ∃ w w' now, (s.ledger.store.view a).shown? id = some w ∧ w.adjust amount now = .ok w' ∧
      (s'.ledger.store.view a).shown? id = some w' := by
  obtain ⟨c, next, answer, rfl, hRest, -, hTold⟩ | ⟨row, rfl, -⟩ | ⟨⟨fault, rfl⟩ | rfl, -⟩ :=
    (Stride.step hStep).cases hSound (agent?_of_update? hUpdate)
  · cases c with
    | add x y =>
      cases hUpdate
      obtain ⟨hCopies, w, w', now, hWallet, hAdjust, hAdded⟩ := hTold
      obtain ⟨isOpen, hFits, hClosed⟩ := hSound.orderly_rest hRest
      have hNone : (s.ledger.store.view a).copies = [] := hClosed (by simpa [Call.fits] using hFits)
      refine ⟨w, w', now, ?_, hAdjust, ?_⟩
      · rw [View.shown?_of_nil hNone]
        exact hWallet
      · rw [View.shown?_of_nil (hCopies.trans hNone), hAdded, Function.update_self]
    | addWithin x y =>
      cases hUpdate
      have hWallets : (s'.ledger.store.view a).wallet? = (s.ledger.store.view a).wallet? :=
        funext (hStep.wallet?_eq hSound rfl)
      obtain ⟨w, w', now, hShown, hAdjust, hNow⟩ :=
        hTold.shown?_addWithin_ok hWallets hSound.id_of_shown?
      refine ⟨w, w', now, hShown, hAdjust, ?_⟩
      rw [hNow, Function.update_self]
    | _ => cases hUpdate
  · cases hUpdate
  · cases hUpdate
  · cases hUpdate

/-! ## What the exact sum decides -/

/-- An answer to an update of a live wallet, and the wallet as it is shown afterwards, as the exact
sum decides them. -/
structure Decided (w : Wallet) (amount : Decimal) (answer : Result Unit) (shown? : Option Wallet) :
    Prop where
  short : answer = .error .insufficientBalance ↔ w.balance.units + amount.units < 0
  representable : amount.units ≤ 0 → answer ≠ .error .invalidAmount
  exact : Decimal.SumFits w.balance amount → 0 ≤ w.balance.units + amount.units →
    answer = .ok () ∧ ∃ w', shown? = some w' ∧ w'.balance.units = w.balance.units + amount.units

/-- What comes of adding an amount to a live wallet is decided by the exact sum. -/
theorem decided_of_added {now : Timestamp} {shown? : Option Wallet} (hLive : w.isDeleted = false)
    (hBalance : 0 ≤ w.balance.units) (hAnswer : answer = Wallet.added (some w) amount now)
    (hShown : answer = .ok () → ∃ w' later, shown? = some w' ∧ w.adjust amount later = .ok w') :
    Decided w amount answer shown? := by
  subst hAnswer
  refine ⟨?_, fun hAmount => ?_, fun hFits hCovered => ?_⟩
  · rw [Wallet.added_eq_error_iff]
    exact Wallet.adjust_eq_short_iff hLive hBalance
  · rw [Ne, Wallet.added_eq_error_iff]
    exact Wallet.adjust_ne_invalidAmount hBalance hAmount
  · obtain ⟨v, hAdjust, -⟩ := Wallet.exists_adjust hFits hLive (by omega) now
    have hAccepted : Wallet.added (some w) amount now = .ok () := Wallet.added_eq_ok hAdjust
    obtain ⟨w', later, hNow, hAdjust'⟩ := hShown hAccepted
    obtain ⟨v', hLater, hExact⟩ := Wallet.exists_adjust hFits hLive (by omega) later
    obtain rfl : v' = w' := Except.ok.inj (hLater.symm.trans hAdjust')
    exact ⟨hAccepted, v', hNow, hExact⟩

/-- What is decided of a single wallet. -/
theorem decided_of_adjust (hLive : w.isDeleted = false) (hBalance : 0 ≤ w.balance.units)
    (amount : Decimal) (now : Timestamp) :
    Decided w amount ((w.adjust amount now).map fun _ => ()) (w.adjust amount now).toOption := by
  have hAnswer : (w.adjust amount now).map (fun _ => ()) = Wallet.added (some w) amount now := rfl
  refine decided_of_added hLive hBalance hAnswer fun hAccepted => ?_
  cases hAdjust : w.adjust amount now with
  | error e =>
    rw [hAdjust] at hAccepted
    cases hAccepted
  | ok w' => exact ⟨w', now, rfl, hAdjust⟩

/-- What is decided of an update that a step answers. -/
theorem Step.decided_of_update (hStep : Step env s e s') (hSound : s.Sound)
    (hUpdate : e.update? = some (a, id, amount, answer)) (hEarnest : Earnest s.ledger answer)
    (hShown : (s.ledger.store.view a).shown? id = some w) (hLive : w.isDeleted = false)
    (hBalance : 0 ≤ w.balance.units) :
    Decided w amount answer ((s'.ledger.store.view a).shown? id) := by
  obtain ⟨now, hAnswer⟩ := hStep.added_of_update hSound hUpdate hEarnest
  rw [hShown] at hAnswer
  refine decided_of_added hLive hBalance hAnswer ?_
  rintro rfl
  obtain ⟨w₁, w', later, hShown₁, hAdjust, hNow⟩ := hStep.shown?_of_update hSound hUpdate
  obtain rfl : w₁ = w := Option.some.inj (hShown₁.symm.trans hShown)
  exact ⟨w', later, hNow, hAdjust⟩

/-- The debit of a transfer is answered at the stage at which the balance has been found to cover
it. -/
theorem Run.debit_accepted {r : Transfer} (hResting : l.store.Resting)
    (hRun : Run env (start jobs l) trace s) (hJob : jobs a = .transfer (some r))
    (hCheck : r.check = .ok legs) (hStep : Step env s e s')
    (hUpdate : e.update? = some (a, id, legs.amount.neg, answer))
    (hEarnest : Earnest s.ledger answer) : answer = .ok () := by
  have hSound := hRun.sound (sound_start hResting jobs)
  obtain ⟨now, hAnswer⟩ := hStep.added_of_update hSound hUpdate hEarnest
  have hAlong := hRun.along hResting a
  rw [hJob] at hAlong
  obtain ⟨c, next, answer', rfl, hRest, -, -⟩ | ⟨row, rfl, -⟩ | ⟨⟨fault, rfl⟩ | rfl, -⟩ :=
    (Stride.step hStep).cases hSound (agent?_of_update? hUpdate)
  · obtain ⟨hEnded, -⟩ | ⟨r', legs', stage, hSome, hCheck', hStage, hHolds⟩ := hAlong
    · -- an agent that is done answers nothing
      rw [Thread.rest?_of_isEnded hEnded] at hRest
      cases hRest
    · cases hSome
      obtain rfl : legs' = legs := Except.ok.inj (hCheck'.symm.trans hCheck)
      rw [hStage, stage.program_eq] at hRest
      obtain ⟨hCall, -⟩ := (Program.call.injEq ..).mp (Option.some.inj hRest)
      rw [hAnswer]
      refine Stage.debit_accepted (Transfer.check_ok hCheck) hHolds ?_
      rw [hCall]
      cases c with
      | add =>
        -- within a transaction nothing is added at once
        cases stage <;> cases hCall
      | addWithin =>
        cases hUpdate
        rfl
      | _ => cases hUpdate
  · cases hUpdate
  · cases hUpdate
  · cases hUpdate

/-- Whether an update is accepted or refused is decided by the exact sum, and rounding changes nothing
in it: so it is with a single wallet, and with every update that is answered in any run. And a
transfer that has found the balance to cover the amount is never refused its debit. -/
theorem Run.decided (hResting : l.store.Resting) (hRun : Run env (start jobs l) trace s) :
    (∀ (w : Wallet) amount now, w.isDeleted = false → 0 ≤ w.balance.units →
      Decided w amount ((w.adjust amount now).map fun _ => ()) (w.adjust amount now).toOption) ∧
    (∀ e s' a id amount answer w, Step env s e s' → e.update? = some (a, id, amount, answer) →
      Earnest s.ledger answer → (s.ledger.store.view a).shown? id = some w →
      w.isDeleted = false → 0 ≤ w.balance.units →
      Decided w amount answer ((s'.ledger.store.view a).shown? id)) ∧
    (∀ e s' a r legs id answer, jobs a = .transfer (some r) → r.check = .ok legs →
      Step env s e s' → e.update? = some (a, id, legs.amount.neg, answer) →
      Earnest s.ledger answer → answer = .ok ()) := by
  have hSound := hRun.sound (sound_start hResting jobs)
  refine ⟨?_, ?_, ?_⟩
  · intro w amount now hLive hBalance
    exact decided_of_adjust hLive hBalance amount now
  · intro e s' a id amount answer w hStep hUpdate hEarnest hShown hLive hBalance
    exact hStep.decided_of_update hSound hUpdate hEarnest hShown hLive hBalance
  · intro e s' a r legs id answer hJob hCheck hStep hUpdate hEarnest
    exact hRun.debit_accepted hResting hJob hCheck hStep hUpdate hEarnest

/-- A transfer of 4 coins out of 10 has asked for both wallets: its debit is accepted, and leaves 6. -/
theorem debit_decided :
    let s := (play stillness [0, 0, 0] (duo (coins 10) (coins 10) [between 1 2 (coins 4)])).2
    ∃ e s' w', s.turn? stillness 0 = some (e, s') ∧
      e.update? = some (0, .ofNat 1, (coins 4).neg, .ok ()) ∧
      (s'.ledger.store.view 0).shown? (.ofNat 1) = some w' ∧
      w'.balance.units = (coins 6).units := by
  intro s
  have hFacts : (s.turn? stillness 0).map (fun t => t.1.update?.map fun u => (u.1, u.2.1, u.2.2.1)) =
        some (some (0, .ofNat 1, (coins 4).neg)) ∧
      s.ledger.failing.entries = [] ∧ s.ledger.store.armed = [] ∧
      (s.ledger.store.view 0).shown? (.ofNat 1) = some (walletOf 1 (coins 10)) := by
    decide +kernel
  obtain ⟨hTurn, hFailing, hArmed, hShown⟩ := hFacts
  obtain ⟨⟨e, s'⟩, hTurn, hEvent⟩ := Option.map_eq_some_iff.mp hTurn
  obtain ⟨⟨a, id, amount, answer⟩, hUpdate, hSame⟩ := Option.map_eq_some_iff.mp hEvent
  cases hSame
  have hFree : s.ledger.Unhindered := by
    refine ⟨fun m => ?_, hArmed⟩
    rw [Table.get?, hFailing]
    rfl
  obtain ⟨-, hDecided, hDebit⟩ := Run.decided (resting_duoLedger _ _) (run_play stillness _ _)
  have hAccepted := hDebit e s' 0 _ ⟨⟨.ofNat 1, .ofNat 1⟩, ⟨.ofNat 2, .ofNat 2⟩, coins 4⟩ _ answer
    rfl (by decide +kernel) (.turn hTurn) hUpdate (Or.inl hFree)
  subst hAccepted
  have hExact := (hDecided e s' 0 _ _ _ _ (.turn hTurn) hUpdate (Or.inl hFree) hShown rfl
    (by decide)).exact (by decide) (by decide)
  obtain ⟨-, w', hNow, hBalance⟩ := hExact
  refine ⟨e, s', w', hTurn, hUpdate, hNow, hBalance.trans ?_⟩
  decide

end Crowd

end Purse
