import Purse.Proofs.Crowd.Isolation
import Purse.Proofs.Crowd.Serial

/-!
# Solvency

No balance is ever below zero, be it committed or in a transaction: every change of a balance is
refused that would make it so, and no wallet is made with a balance below zero. The only ones that are
not looked at are wallets stored by hand, so of these it has to be asked.

## Results

* `calls_creation`: what the making of a wallet stores is not below zero.
* `Course.solvent`: no balance is below zero, in any course.
-/

namespace Purse

theorem Decimal.isBelowZero_eq_false {d : Decimal} : d.isBelowZero = false ↔ 0 ≤ d.units := by
  simp [isBelowZero]

/-! ## Making wallets -/

/-- A wallet that a call stores is not below zero. -/
def Call.StoresSolvent (c : Call) : Prop :=
  ∀ w, c = .insert w → w.balance.isBelowZero = false

/-- What the making of a wallet stores is not below zero, whatever opening balance is asked for. -/
theorem calls_creation (request : Option NewWallet) :
    (creation request).Calls Call.StoresSolvent := by
  refine Program.Calls.bind ?_ fun _ => trivial
  cases request with
  | none => trivial
  | some request =>
    rw [create_some]
    cases hCheck : request.check with
    | error e => trivial
    | ok user =>
      rw [Program.bind_ok]
      -- the id and the time come from elsewhere, the balance is the one that was checked
      refine Program.Calls.bind ⟨by rintro w ⟨⟩, fun _ => trivial⟩ fun id => ?_
      refine Program.Calls.bind ⟨by rintro w ⟨⟩, fun _ => trivial⟩ fun now => ?_
      refine Program.Calls.bind ⟨?_, fun _ => trivial⟩ fun _ => trivial
      rintro w ⟨⟩
      exact NewWallet.check_ok hCheck

theorem Program.Orderly.bind {α β : Type} {p : Program α} {f : α → Program β} {isOpen : Bool}
    (hFirst : p.Orderly isOpen) (hNext : ∀ a, (f a).Orderly false) : (p.bind f).Orderly isOpen := by
  induction p generalizing isOpen with
  | done result =>
    obtain rfl : isOpen = false := hFirst
    cases result with
    | ok a => exact hNext a
    | error e => rfl
  | call c next ih => exact ⟨hFirst.1, fun answer => ih answer (hFirst.2 answer)⟩

/-- To make a wallet is to use no transaction. -/
theorem orderly_creation (request : Option NewWallet) : (creation request).Orderly false := by
  refine Program.Orderly.bind ?_ fun _ => rfl
  cases request with
  | none => rfl
  | some request =>
    rw [create_some]
    generalize request.check = owner
    refine Program.Orderly.bind rfl fun user => ?_
    refine Program.Orderly.bind ⟨rfl, fun _ => by rfl⟩ fun id => ?_
    refine Program.Orderly.bind ⟨rfl, fun _ => by rfl⟩ fun now => ?_
    exact Program.Orderly.bind ⟨rfl, fun _ => by rfl⟩ fun _ => rfl

namespace Crowd

variable {env : Surroundings} {s s' : Crowd} {e : Event} {trace : List Event} {jobs : Agent → Job}
  {l : Ledger}

/-! ## Balances -/

/-- No balance is below zero, be it committed or in a transaction. -/
structure Solvent (s : Store) : Prop where
  committed : NoneBelowZero s.wallet?
  copies : ∀ {a c}, c ∈ s.copies a → c.balance.isBelowZero = false

theorem Solvent.shown? {s : Store} {a : Agent} (hSolvent : Solvent s) :
    NoneBelowZero (s.view a).shown? := by
  intro id w hShown
  rcases Option.or_eq_some_iff.mp hShown with hCopy | ⟨-, hWallet⟩
  · exact hSolvent.copies (List.mem_of_find?_eq_some hCopy)
  · exact hSolvent.committed id w hWallet

/-- A stride leaves no balance below zero, if it stores no wallet that is. -/
theorem Solvent.stride (hSolvent : Solvent s.ledger.store) (hSound : s.Sound)
    (hStride : Stride env s e s')
    (hStored : ∀ a w, e = .answered a (.insert w) (.ok ()) → w.balance.isBelowZero = false) :
    Solvent s'.ledger.store := by
  refine ⟨?_, fun {a c} hMem => ?_⟩
  · cases hStride.published hSound with
    | quiet hWallets hSame =>
      rw [hSame]
      exact hSolvent.committed
    | committed hWallets =>
      rw [hWallets]
      exact hSolvent.shown?
    | added hWallet hAdjust hWallets =>
      rw [hWallets]
      exact hSolvent.committed.update hAdjust _
    | @inserted a w hNew hWallets =>
      intro id v hWallet
      rw [hWallets, Function.update_apply] at hWallet
      split at hWallet
      · rw [← Option.some.inj hWallet]
        exact hStored a w rfl
      · exact hSolvent.committed id v hWallet
  · cases hStride.reworked hSound a with
    | gone hNone hUpdates =>
      rw [hNone] at hMem
      exact absurd hMem List.not_mem_nil
    | same hCopies hWallets hUpdates =>
      rw [hCopies] at hMem
      exact hSolvent.copies hMem
    | lent hNew hWallet hCopies hWallets hUpdates =>
      rw [hCopies] at hMem
      rcases List.mem_append.mp hMem with hOld | hLast
      · exact hSolvent.copies hOld
      · rw [List.mem_singleton.mp hLast]
        exact hSolvent.committed _ _ hWallet
    | adjusted hShown hAdjust hCopies hWallets hUpdates =>
      have hSum := (Wallet.adjust_ok hAdjust).2.2.1
      rw [hCopies] at hMem
      split at hMem
      · obtain ⟨v, hOld, rfl⟩ := List.mem_map.mp hMem
        split
        · exact hSum
        · exact hSolvent.copies hOld
      · rcases List.mem_append.mp hMem with hOld | hLast
        · exact hSolvent.copies hOld
        · rw [List.mem_singleton.mp hLast]
          exact hSum

/-- No balance is below zero, committed or in a transaction, in any course over wallets of which none
is, if no wallet below zero is stored by hand. -/
theorem Course.solvent (hResting : l.store.Resting)
    (hNone : ∀ id w, l.store.wallet? id = some w → 0 ≤ w.balance.units)
    (hCourse : Course env (start jobs l) trace s)
    (hByHand : ∀ a w, .answered a (.insert w) (.ok ()) ∈ trace →
      (∀ request, (jobs a).program ≠ creation request) → 0 ≤ w.balance.units) :
    (∀ id w, s.ledger.store.wallet? id = some w → 0 ≤ w.balance.units) ∧
      ∀ a, ∀ c ∈ s.ledger.store.copies a, 0 ≤ c.balance.units := by
  simp only [← Decimal.isBelowZero_eq_false] at hNone hByHand ⊢
  suffices hSolvent : Solvent s.ledger.store from
    ⟨hSolvent.committed, fun a c => hSolvent.copies⟩
  have hStart := sound_start hResting jobs
  -- copies are in the statement, or a commit could publish a balance below zero
  induction hCourse with
  | nil =>
    refine ⟨hNone, fun {a c} hMem => ?_⟩
    rw [show (start jobs l).ledger.store.copies a = [] from hResting.idle a] at hMem
    exact absurd hMem List.not_mem_nil
  | @snoc trace s s' e hCourse hStride ih =>
    have hSolvent := ih fun a w hMem => hByHand a w (List.mem_append_left _ hMem)
    refine hSolvent.stride (hCourse.sound hStart) hStride ?_
    rintro a w rfl
    have hMem : .answered a (.insert w) (.ok ()) ∈ trace ++ [.answered a (.insert w) (.ok ())] :=
      List.mem_append_right _ (List.mem_singleton_self _)
    by_cases hCreation : ∃ request, (jobs a).program = creation request
    · -- made by the ledger, and so with a balance that was checked
      obtain ⟨request, hProgram⟩ := hCreation
      have hCalls := calls_creation request
      rw [← hProgram] at hCalls
      exact ((hCourse.snoc hStride).calls hResting hCalls).1 _ _ hMem w rfl
    · exact hByHand a w hMem fun request hProgram => hCreation ⟨request, hProgram⟩

/-- Stores a wallet by hand. -/
def storing (w : Wallet) : Job := .other (.call (.insert w) fun _ => .done (.ok .unit))
  ⟨rfl, fun _ => rfl⟩

/-- Makes a wallet. -/
def making (request : Option NewWallet) : Job := .other (creation request) (orderly_creation request)

/-- The wallet that is stored by a step. -/
def stored? : Event → Option Wallet
  | .answered _ (.insert w) (.ok _) => some w
  | _ => none

/-- A wallet made, one stored by hand, two updates in a transaction that is still open, and a transfer
that waits for it: four wallets and a copy, none of them below zero. -/
theorem solvent_with_wallets_made :
    let jobs := jobsOf [making (some ⟨(UserId.ofNat 3).text, coins 5⟩),
      storing (walletOf 4 (coins 4)),
      .other (updatingTwice 1 1 (coins 2) (coins 5).neg) (orderly_updatingTwice ..),
      between 2 1 (coins 20)]
    let ledger := { duoLedger (coins 10) (coins 10) with mint := ⟨.ofNat 4⟩ }
    let run := play stillness [0, 0, 0, 1, 2, 2, 2, 2, 3, 3, 3] (start jobs ledger)
    run.2.ledger.store.wallets.map Wallet.balance = [coins 10, coins 10, coins 5, coins 4] ∧
      (run.2.ledger.store.copies 2).map Wallet.balance = [coins 7] ∧
      (∀ id w, run.2.ledger.store.wallet? id = some w → 0 ≤ w.balance.units) ∧
      ∀ a, ∀ c ∈ run.2.ledger.store.copies a, 0 ≤ c.balance.units := by
  intro jobs ledger run
  have hFacts :
      run.2.ledger.store.wallets.map Wallet.balance = [coins 10, coins 10, coins 5, coins 4] ∧
      (run.2.ledger.store.copies 2).map Wallet.balance = [coins 7] ∧
      ∀ w ∈ run.1.filterMap stored?, 0 ≤ w.balance.units := by
    decide +kernel
  obtain ⟨hWallets, hCopies, hStored⟩ := hFacts
  have hRun : Run stillness (start jobs ledger) run.1 run.2 := run_play stillness _ _
  have hResting : ledger.store.Resting := resting_duoLedger _ _
  have hNone : NoneBelowZero ledger.store.wallet? := .ofWallets (by decide)
  refine ⟨hWallets, hCopies, Course.solvent hResting (fun id w hWallet => ?_) hRun.course ?_⟩
  · exact Decimal.isBelowZero_eq_false.mp (hNone id w hWallet)
  · intro a w hMem _
    exact hStored w (List.mem_filterMap.mpr ⟨_, hMem, rfl⟩)

end Crowd

end Purse
