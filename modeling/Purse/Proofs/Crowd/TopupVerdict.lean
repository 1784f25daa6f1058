import Purse.Proofs.Crowd.Lone
import Purse.Proofs.Crowd.Play
import Purse.Proofs.Keys.Answers
import Purse.Proofs.Service.TopupCalls
import Purse.Proofs.Wallet.Decision

/-!
# What comes of a top-up

A top-up of a wallet that nobody has locked comes to its end at once, whoever else is at work. What
comes of it (`Topup.fate`) follows from the request, from the claim of its key and from the wallet that
it names, in this order. That tells as well what becomes of the key. A request that is flawed in itself
has its key back as if it had never come; one that the wallet refuses keeps it.

There is one exception: the claim of a free key that would end where no instant lies breaks the top-up
down, flawed or not, with everything as it was.

## Definitions

* `Topup.flaw?`: why a request is refused over its own content.
* `Topup.fate`: what comes of a top-up.
* `Topup.Fate.Leaves`: the ledger before and after it.

## Results

* `Store.exists_add_unlocked`: an amount that is added to a wallet nobody has locked.
* `Ledger.drive_topup`, `Schedule.execute_topup`: what comes of a top-up.
-/

namespace Purse

-- ---------------------------------------------------------------------------
-- What may come of a top-up
-- ---------------------------------------------------------------------------

namespace Topup

/-- Why a request is refused over its own content: the first reason against it, in order. -/
def flaw? (r : Topup) : Option LedgerError :=
  if isBlankText r.walletId then some .emptyWallet
  else if isBlankText r.userId then some .invalidUser
  else if r.amount.units = 0 then some .invalidAmount
  else if WalletId.parseTrimmed? r.walletId = none then some .emptyWallet
  else if UserId.parseTrimmed? r.userId = none then some .invalidUser
  else none

/-- What may come of a top-up. -/
inductive Fate where
  /-- There is no key. -/
  | keyless
  /-- The key has a live claim. -/
  | inUse
  /-- The claim of the key would end where no instant lies. -/
  | beyond
  /-- The request is refused over its own content. -/
  | flawed (e : LedgerError)
  /-- There is no such wallet, or it does not take the amount. -/
  | refused (e : LedgerError)
  /-- The amount is added to the wallet. -/
  | applied (w : Wallet)
  deriving DecidableEq

/-- What comes of a request without flaws whose key has been claimed. -/
def settled (r : Topup) (wallet? : WalletId → Option Wallet) : Fate :=
  match (WalletId.parseTrimmed? r.walletId).bind wallet? with
  | none => .refused .emptyWallet
  | some w =>
    match w.refusal? r.amount with
    | some e => .refused e
    | none => .applied w

/-- What comes of a top-up. -/
def fate (r : Topup) (l : Ledger) : Fate :=
  if isBlankText r.idempotencyKey then .keyless
  else if l.keys.isLive l.now r.key then .inUse
  else if Instant.limit ≤ l.now + l.keys.lifetime then .beyond
  else match r.flaw? with
    | some e => .flawed e
    | none => r.settled l.store.wallet?

namespace Fate

/-- How a top-up ends. -/
def ending : Fate → Ending
  | keyless => .result (.error .emptyWallet)
  | inUse => .result (.error .alreadyExists)
  | beyond => .fault .instantOverflow
  | flawed e | refused e => .result (.error e)
  | applied _ => .result (.ok .unit)

/-- The keys after a top-up. -/
def keysAfter (k : Keys) (now : Instant) (key : String) : Fate → Keys
  | keyless | inUse | beyond => k
  | flawed _ => k.release key
  | refused _ | applied _ => { k with claims := k.claims.put key (now + k.lifetime) }

/-- The wallets before and after a top-up of an amount, at a time of the wall clock. -/
def Changes (amount : Decimal) (time : Timestamp) (wallet? wallet?' : WalletId → Option Wallet) :
    Fate → Prop
  | keyless | inUse | beyond | flawed _ | refused _ => wallet?' = wallet?
  | applied w => ∃ sum, Decimal.add? w.balance amount = some sum ∧
    wallet?' = Function.update wallet? w.id (some { w with balance := sum, updatedAt := time })

/-- The ledger before and after a top-up. -/
structure Leaves (fate : Fate) (r : Topup) (env : Surroundings) (l l' : Ledger) : Prop where
  now : l'.now = l.now
  keys : l'.keys = fate.keysAfter l.keys l.now r.key
  ids : l'.store.rows.keys = l.store.rows.keys
  wallets : fate.Changes r.amount (l.wallTime env) l.store.wallet? l'.store.wallet?

end Fate

variable {r : Topup} {id : WalletId} {e : LedgerError}

theorem units_ne_zero (hAmount : r.amount.isZero = false) : r.amount.units ≠ 0 := by
  rw [Ne, ← Decimal.isZero_iff_units, hAmount]
  exact Bool.false_ne_true

theorem flaw?_of_error (hCheck : r.check = .error e) : r.flaw? = some e := by
  unfold flaw?
  cases check_eq_error_iff.mp hCheck with
  | noWallet hWallet => simp [hWallet]
  | noUser hWallet hUser => simp [hWallet, hUser]
  | noAmount hWallet hUser hAmount =>
    have hZero := (Decimal.isZero_iff_units r.amount).mp hAmount
    simp [hWallet, hUser, hZero]
  | malformedWallet hWallet hUser hAmount hMalformed =>
    have hUnits := units_ne_zero hAmount
    simp [hWallet, hUser, hUnits, hMalformed]
  | malformedUser hUser hAmount hWallet hMalformed =>
    have hThere := WalletId.isBlankText_eq_false hWallet
    have hUnits := units_ne_zero hAmount
    simp [hThere, hUser, hUnits, hWallet, hMalformed]

theorem flaw?_of_ok (hCheck : r.check = .ok id) :
    r.flaw? = none ∧ WalletId.parseTrimmed? r.walletId = some id := by
  obtain ⟨hWallet, ⟨user, hUser⟩, hAmount⟩ := check_eq_ok_iff.mp hCheck
  have hWalletThere := WalletId.isBlankText_eq_false hWallet
  have hUserThere := UserId.isBlankText_eq_false hUser
  have hUnits := units_ne_zero hAmount
  refine ⟨?_, hWallet⟩
  simp [flaw?, hWalletThere, hUserThere, hUnits, hWallet, hUser]

/-- A request without flaws has its key claimed for a lifetime, whatever its wallet makes of it. -/
theorem keysAfter_settled (r : Topup) (wallet? : WalletId → Option Wallet) (k : Keys)
    (now : Instant) (key : String) :
    (r.settled wallet?).keysAfter k now key =
      { k with claims := k.claims.put key (now + k.lifetime) } := by
  unfold settled
  split
  · rfl
  · split <;> rfl

/-- A request is found to be flawed only once its key has been claimed. -/
theorem isLive_of_flawed {l : Ledger} (hFlawed : r.fate l = .flawed e) :
    l.keys.isLive l.now r.key = false := by
  rw [← Bool.not_eq_true]
  intro hLive
  unfold fate at hFlawed
  rw [if_pos hLive] at hFlawed
  split at hFlawed <;> cases hFlawed

end Topup

-- ---------------------------------------------------------------------------
-- Adding to a wallet that nobody has locked
-- ---------------------------------------------------------------------------

namespace Store

variable {s : Store} {id : WalletId} {row : Row} {amount : Decimal} {now : Timestamp}

theorem wallet?_release (s : Store) (id : WalletId) : (s.release id).1.wallet? = s.wallet? := by
  rw [fst_release]
  exact funext (wallet?_modifyRow (fun _ => Row.committed_released) s id)

theorem wallet?_releaseAll (s : Store) (ids : List WalletId) :
    (s.releaseAll ids).1.wallet? = s.wallet? := by
  induction ids generalizing s with
  | nil => rfl
  | cons id ids ih => exact (ih (s.release id).1).trans (s.wallet?_release id)

/-- An amount is added at once to a wallet that nobody has locked, if the wallet takes it. -/
theorem exists_add_unlocked (hRow : s.rows.get? id = some row) (hUnlocked : row.holder = none)
    (hId : row.committed.id = id) (a : Agent) (amount : Decimal) (now : Timestamp) :
    (∃ e s' woken, row.committed.refusal? amount = some e ∧
      s.add a id amount now = .replied (.error e) s' woken ∧ s.Keeps s' ∧
      s'.wallet? = s.wallet?) ∨
    ∃ sum s' woken, row.committed.refusal? amount = none ∧
      Decimal.add? row.committed.balance amount = some sum ∧
      s.add a id amount now = .replied (.ok ()) s' woken ∧ s.Keeps s' ∧
      s'.wallet? = Function.update s.wallet? id
        (some { row.committed with balance := sum, updatedAt := now }) := by
  have hEntered : (s.modifyRow id (·.entered a)).wallet? = s.wallet? :=
    funext (wallet?_modifyRow (fun _ => Row.committed_entered) s id)
  have hKeeps := s.keeps_modifyRow id (·.entered a)
  unfold add
  simp only [hRow, acquire_unlocked hUnlocked, addGranted, Solo.wallet?_entered hRow]
  obtain ⟨e, hRefusal, hAdjust⟩ | ⟨hRefusal, sum, hSum, hAdjust⟩ :=
    row.committed.adjust_cases amount now
  · simp only [hAdjust]
    refine Or.inl ⟨e, _, _, hRefusal, rfl, hKeeps.trans (keeps_release _ _), ?_⟩
    rw [wallet?_release, hEntered]
  · simp only [hAdjust]
    refine Or.inr ⟨sum, _, _, hRefusal, hSum, rfl,
      hKeeps.trans ((keeps_modifyRow _ _ _).trans (keeps_release _ _)), ?_⟩
    rw [wallet?_release]
    funext x
    rw [wallet?_publish, hEntered, Function.update_apply]
    by_cases hx : x = id
    · subst hx
      rw [if_pos hId, if_pos rfl, wallet?_of_get? hRow]
      rfl
    · have hOther : row.committed.id ≠ x := by
        rw [hId]
        exact Ne.symm hx
      rw [if_neg hOther, if_neg hx]

end Store

-- ---------------------------------------------------------------------------
-- Top-ups that nothing is in the way of
-- ---------------------------------------------------------------------------

/-- Nothing is in the way of a top-up: no call is arranged to fail, and the wallet that it names is
stored under its id and nobody has locked it. -/
structure Topup.Clear (r : Topup) (l : Ledger) : Prop where
  failing : ∀ m, l.failing.get? m = none
  keyed : ∀ {id w}, l.store.wallet? id = some w → w.id = id
  unlocked : ∀ {id row}, WalletId.parseTrimmed? r.walletId = some id →
    l.store.rows.get? id = some row → row.holder = none

/-- How far a program got that has come to its end. -/
def Ending.progress (l : Ledger) (woken : List Agent) : Ending → Progress Reply
  | .result r => .ended r l woken
  | .fault f => .faulted f l woken

variable {env : Surroundings} {l l' : Ledger} {a : Agent} {r : Topup} {id : WalletId}

namespace Ledger

/-- A request that is flawed gives back its key. -/
theorem drive_flawed {e : LedgerError} (hNone : ∀ m, l.failing.get? m = none)
    (hCheck : r.check = .error e) (env : Surroundings) (a : Agent) :
    ∃ journal, l.drive env a r.applying [] =
      .ended (.error e) { l with journal, keys := l.keys.release r.key } [] := by
  obtain ⟨journal, hPerform⟩ := exists_perform_of_failing hNone env a (.release r.key)
  refine ⟨journal, ?_⟩
  unfold Topup.applying
  rw [hCheck]
  exact drive_replied hPerform _ []

/-- A request without flaws is left to its wallet. -/
theorem drive_settled (hClear : r.Clear l) (hCheck : r.check = .ok id) (env : Surroundings)
    (a : Agent) :
    ∃ l' woken, l.drive env a r.applying [] =
        (r.settled l.store.wallet?).ending.progress l' woken ∧ l.Keeps l' ∧
      (r.settled l.store.wallet?).Changes r.amount (l.wallTime env) l.store.wallet?
        l'.store.wallet? := by
  obtain ⟨-, hParse⟩ := Topup.flaw?_of_ok hCheck
  obtain ⟨journal, hPerform⟩ := exists_ofStep_add hClear.failing id r.amount env a
  unfold Topup.applying Topup.settled
  rw [hCheck, hParse, Option.bind_some]
  cases hRow : l.store.rows.get? id with
  | none =>
    have hNo : l.store.wallet? id = none := by rw [Store.wallet?, hRow, Option.map_none]
    rw [Store.add, hRow] at hPerform
    rw [hNo]
    exact ⟨_, _, drive_replied hPerform _ [], ⟨rfl, rfl, rfl, .refl l.store⟩, rfl⟩
  | some row =>
    have hWallet := Store.wallet?_of_get? hRow
    have hId : row.committed.id = id := hClear.keyed hWallet
    rw [hWallet]
    obtain ⟨e, s', woken, hRefusal, hAdd, hKeeps, hSame⟩ |
      ⟨sum, s', woken, hRefusal, hSum, hAdd, hKeeps, hUpdated⟩ :=
      Store.exists_add_unlocked hRow (hClear.unlocked hParse hRow) hId a r.amount (l.wallTime env)
    · rw [hAdd] at hPerform
      simp only [hRefusal]
      exact ⟨_, _, drive_replied hPerform _ [], ⟨rfl, rfl, rfl, hKeeps⟩, hSame⟩
    · rw [hAdd] at hPerform
      rw [← hId] at hUpdated
      simp only [hRefusal]
      exact ⟨_, _, drive_replied hPerform _ [], ⟨rfl, rfl, rfl, hKeeps⟩, sum, hSum, hUpdated⟩

/-- A top-up that nothing is in the way of comes to its end, and leaves what its fate says. -/
theorem drive_topup (hClear : r.Clear l) (env : Surroundings) (a : Agent) :
    ∃ l' woken, l.drive env a (Command.topup r).program [] =
      (r.fate l).ending.progress l' woken ∧ (r.fate l).Leaves r env l l' := by
  rw [Command.program, toppingUp_some, Topup.key, isEmpty_trim, ← Topup.key, Topup.fate]
  by_cases hKey : isBlankText r.idempotencyKey = true
  · rw [if_pos hKey, if_pos hKey]
    exact ⟨l, [], rfl, rfl, rfl, rfl, rfl⟩
  rw [if_neg hKey, if_neg hKey]
  obtain ⟨journal, hPerform⟩ := exists_perform_claim hClear.failing r.key env a
  unfold Keys.claim at hPerform
  by_cases hLive : l.keys.isLive l.now r.key = true
  · rw [if_pos hLive]
    rw [if_pos hLive] at hPerform
    exact ⟨_, _, drive_replied hPerform _ [], rfl, rfl, rfl, rfl⟩
  rw [if_neg hLive]
  rw [if_neg hLive] at hPerform
  by_cases hBeyond : Instant.limit ≤ l.now + l.keys.lifetime
  · rw [if_pos hBeyond]
    rw [if_neg (Nat.not_lt.mpr hBeyond)] at hPerform
    exact ⟨{ l with journal }, [], drive_faulted hPerform _ [], rfl, rfl, rfl, rfl⟩
  rw [if_neg hBeyond]
  rw [if_pos (Nat.not_le.mp hBeyond)] at hPerform
  rw [drive_replied hPerform r.claimed []]
  -- the key is claimed
  have hClear' : ∀ (keys : Keys), r.Clear { l with journal, keys } := by
    intro keys
    exact ⟨hClear.failing, hClear.keyed, hClear.unlocked⟩
  cases hCheck : r.check with
  | error e =>
    rw [Topup.flaw?_of_error hCheck]
    obtain ⟨journal', hDrive⟩ := drive_flawed (hClear' _).failing hCheck env a
    refine ⟨_, _, hDrive, rfl, ?_, rfl, rfl⟩
    exact congrArg (Keys.mk l.keys.lifetime) (Table.erase_put _ _ _)
  | ok id =>
    rw [(Topup.flaw?_of_ok hCheck).1]
    obtain ⟨l', woken, hDrive, hKeeps, hChanges⟩ := drive_settled (hClear' _) hCheck env a
    refine ⟨l', woken, hDrive, hKeeps.now, ?_, hKeeps.store.ids, hChanges⟩
    rw [hKeeps.keys]
    exact (r.keysAfter_settled _ _ _ _).symm

end Ledger

/-- A program that has come to its end is over, with whatever comes of its deadline. If it has broken
down, what it holds is dropped. -/
theorem Schedule.exists_execute {s : Schedule} {program : Program Reply} {ending : Ending}
    {woken : List Agent} (hDrive : s.ledger.drive env s.nextAgent program [] =
      ending.progress l' woken) (deadline : Option Instant) :
    ∃ s', s.execute env program deadline = (s', ending, []) ∧ l'.Keeps s'.ledger ∧
      s'.ledger.mint = l'.mint ∧ s'.ledger.store.wallet? = l'.store.wallet? ∧
      (l'.store.Resting → s'.ledger.store.Resting) := by
  cases ending with
  | result result => exact ⟨_, execute_of_drive hDrive, ⟨rfl, rfl, rfl, .refl _⟩, rfl, rfl, id⟩
  | fault fault =>
    have hFaulted : s.ledger.drive env s.nextAgent program [] = .faulted fault l' woken := hDrive
    unfold execute start
    simp only [hFaulted, turn]
    refine ⟨_, rfl, ⟨rfl, rfl, rfl, l'.store.keeps_drop s.nextAgent⟩, rfl,
      Store.wallet?_releaseAll _ _, fun hResting => ?_⟩
    have hSolo := (Solo.of_resting hResting s.nextAgent).of_moves false (.single .drop)
    refine hSolo.resting ?_
    rw [Store.copies_drop, if_pos rfl]

/-- A top-up of a wallet that nobody has locked ends as its fate says, and leaves wallets and keys as
its fate says. If it is flawed, every later claim of any key is answered as if it had never come; and
whatever comes of it, the claims of other keys stay as they are. -/
theorem Schedule.execute_topup {s : Schedule} (hClear : r.Clear s.ledger) (env : Surroundings)
    (deadline : Option Instant) :
    ∃ s', s.execute env (Command.topup r).program deadline =
        (s', (r.fate s.ledger).ending, []) ∧
      (r.fate s.ledger).Leaves r env s.ledger s'.ledger ∧
      (∀ e, r.fate s.ledger = .flawed e → ∀ acts,
        Keys.answers acts s'.ledger.now s'.ledger.keys =
          Keys.answers acts s.ledger.now s.ledger.keys) ∧
      ∀ key, key ≠ r.key →
        s'.ledger.keys.claims.get? key = s.ledger.keys.claims.get? key := by
  obtain ⟨l', woken, hDrive, hLeaves⟩ := Ledger.drive_topup hClear env s.nextAgent
  obtain ⟨s', hExecute, hKeeps, -, hWallets, -⟩ := exists_execute hDrive deadline
  have hNow : s'.ledger.now = s.ledger.now := hKeeps.now.trans hLeaves.now
  have hKeys := hKeeps.keys.trans hLeaves.keys
  refine ⟨s', hExecute, ⟨hNow, hKeys, hKeeps.store.ids.trans hLeaves.ids, ?_⟩, ?_, ?_⟩
  · rw [hWallets]
    exact hLeaves.wallets
  · intro e hFlawed acts
    rw [hNow, hKeys, hFlawed]
    exact (Keys.same_release (Topup.isLive_of_flawed hFlawed)).answers_eq acts
  · intro key hOther
    rw [hKeys]
    cases r.fate s.ledger with
    | keyless | inUse | beyond => rfl
    | flawed e => exact (Keys.get?_release _ _ _).trans (if_neg hOther)
    | refused e => exact Table.get?_put_of_ne _ _ (Ne.symm hOther)
    | applied w => exact Table.get?_put_of_ne _ _ (Ne.symm hOther)

namespace Crowd

/-- A top-up of the wallet of user 1 with 3 coins. -/
def threeCoins : Topup :=
  ⟨(WalletId.ofNat 1).text, (UserId.ofNat 1).text, coins 3, " key "⟩

/-- A schedule at instant 10, in which the claim of a key has ended at instant 5. -/
def staleSchedule : Schedule :=
  { Schedule.empty 0 with
    ledger := { duoLedger (coins 10) (coins 10) with
      now := 10, keys := ⟨60000, Table.empty.put "key" 5⟩ } }

/-- A key whose claim has ended is claimed anew, and the coins are added. -/
theorem three_coins_added :
    threeCoins.Clear staleSchedule.ledger ∧
      ∃ s', staleSchedule.execute stillness (Command.topup threeCoins).program none =
          (s', .result (.ok .unit), []) ∧
        s'.ledger.keys.claims.get? "key" = some 60010 ∧
        (s'.ledger.store.wallet? (.ofNat 1)).map Wallet.balance = some (coins 13) ∧
        s'.ledger.store.wallet? (.ofNat 2) = some (walletOf 2 (coins 10)) := by
  have hResting : staleSchedule.ledger.store.Resting := resting_duoLedger (coins 10) (coins 10)
  have hClear : threeCoins.Clear staleSchedule.ledger := by
    refine ⟨fun _ => rfl, hResting.keyed, ?_⟩
    intro id row _ hRow
    rw [hResting.free hRow]
    rfl
  have hFacts : threeCoins.fate staleSchedule.ledger = .applied (walletOf 1 (coins 10)) ∧
      threeCoins.key = "key" ∧
      staleSchedule.ledger.store.wallet? (.ofNat 2) = some (walletOf 2 (coins 10)) ∧
      Decimal.add? (coins 10) (coins 3) = some (coins 13) := by
    decide +kernel
  obtain ⟨hFate, hKey, hSecond, hSum⟩ := hFacts
  obtain ⟨s', hExecute, hLeaves, -, -⟩ := Schedule.execute_topup hClear stillness none
  rw [hFate] at hExecute hLeaves
  obtain ⟨sum, hAdded, hWallets⟩ := hLeaves.wallets
  obtain rfl : sum = coins 13 := Option.some.inj (hAdded.symm.trans hSum)
  refine ⟨hClear, s', hExecute, ?_, ?_, ?_⟩
  · rw [hLeaves.keys, hKey]
    exact Table.get?_put_self _ _ _
  · rw [hWallets, show WalletId.ofNat 1 = (walletOf 1 (coins 10)).id from rfl,
      Function.update_self]
    rfl
  · have hOther : WalletId.ofNat 2 ≠ (walletOf 1 (coins 10)).id := by decide
    rw [hWallets, Function.update_of_ne hOther, hSecond]

end Crowd

end Purse
