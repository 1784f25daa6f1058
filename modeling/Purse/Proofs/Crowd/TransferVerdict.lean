import Purse.Proofs.Crowd.Decisions
import Purse.Proofs.Crowd.Lone
import Purse.Proofs.Crowd.Play

/-!
# What comes of a transfer

A transfer over wallets that nobody else is at work on is answered by what the request says and what the
wallets are, before anything is locked (`Transfer.refusal?`): the first reason against it counts, in
an order that neither the order of the ids nor the order of the locks has to do with. Nothing changes
unless there is no reason against it, and then the balances of two wallets, which are never one.

## Definitions

* `NameOneUser`: two texts name one user.
* `Transfer.legs?`, `Party.owned?`: the parties of a request, and the wallet that a party owns.
* `Transfer.refusal?`: why a transfer is refused.
* `Stage.Gets`: a transfer by itself gets from one stage to another.

## Results

* `Transfer.check_eq`: the checks of a request.
* `Alone.paired`, `Alone.undone`, `Alone.settled`: from the first stage to the last.
* `Schedule.execute_transfer`: what comes of a transfer.
-/

namespace Purse

-- ---------------------------------------------------------------------------
-- Why a transfer is refused
-- ---------------------------------------------------------------------------

/-- Two texts name one user: they are ids of one user, or one text but for the blanks around it. -/
def NameOneUser (a b : String) : Prop :=
  UserId.parseTrimmed? a ≠ none ∧ UserId.parseTrimmed? a = UserId.parseTrimmed? b ∨ trim a = trim b

instance (a b : String) : Decidable (NameOneUser a b) := inferInstanceAs (Decidable (_ ∨ _))

/-- The parties of a request and its amount, if nothing in it is malformed. -/
def Transfer.legs? (r : Transfer) : Option Legs :=
  match UserId.parseTrimmed? r.senderId, UserId.parseTrimmed? r.receiverId,
    WalletId.parseTrimmed? r.senderWalletId, WalletId.parseTrimmed? r.receiverWalletId with
  | some sender, some receiver, some senderWallet, some receiverWallet =>
    some ⟨⟨sender, senderWallet⟩, ⟨receiver, receiverWallet⟩, r.amount⟩
  | _, _, _, _ => none

/-- The wallet of a party, if it is live and the user's. -/
def Party.owned? (wallet? : WalletId → Option Wallet) (p : Party) : Option Wallet :=
  (wallet? p.wallet).filter (·.isOwnedBy p.user)

/-- Why an amount is not moved between the wallets of two parties. -/
def Legs.refusal? (wallet? : WalletId → Option Wallet) (legs : Legs) : Option LedgerError :=
  match legs.sender.owned? wallet?, legs.receiver.owned? wallet? with
  | some sender, some receiver =>
    if sender.balance.units < legs.amount.units then some .insufficientBalance
    else if Decimal.OutOfReach (receiver.balance.units + legs.amount.units) then
      some .invalidAmount
    else if receiver.balance.units + legs.amount.units < 0 then some .insufficientBalance
    else none
  | _, _ => some .invalidUser

/-- Why a transfer is refused: the first reason against it, in order. -/
def Transfer.refusal? (wallet? : WalletId → Option Wallet) (r : Transfer) : Option LedgerError :=
  if NameOneUser r.senderId r.receiverId then some .sameAccount
  else if r.amount.units ≤ 0 then some .invalidAmount
  else match r.legs? with
    | none => some .invalidUser
    | some legs => legs.refusal? wallet?

/-- What a transfer is answered, by the reason against it. -/
def verdict : Option LedgerError → Result Reply
  | some e => .error e
  | none => .ok .unit

theorem sameUser_iff {a b : String} : sameUser a b = true ↔ NameOneUser a b := by
  have hTrim : trim a = trim b → UserId.parseTrimmed? a = UserId.parseTrimmed? b := by
    intro hSame
    unfold UserId.parseTrimmed?
    rw [hSame]
  unfold sameUser NameOneUser
  cases hA : UserId.parseTrimmed? a with
  | none => simp
  | some x =>
    cases hB : UserId.parseTrimmed? b with
    | none => simp
    | some y =>
      rw [hA, hB] at hTrim
      simp only [beq_iff_eq, ne_eq, reduceCtorEq, not_false_eq_true, true_and, Option.some.injEq]
      exact ⟨Or.inl, fun hEither => hEither.elim id fun hSame => Option.some.inj (hTrim hSame)⟩

/-- A request is checked for one user, for its amount, and for malformed ids, in this order. -/
theorem Transfer.check_eq (r : Transfer) :
    r.check =
      if NameOneUser r.senderId r.receiverId then .error .sameAccount
      else if r.amount.units ≤ 0 then .error .invalidAmount
      else match r.legs? with
        | none => .error .invalidUser
        | some legs => .ok legs := by
  have hZero : Decimal.zero.units = 0 := by decide
  have hAmount : (r.amount.le Decimal.zero = true) = (r.amount.units ≤ 0) := by
    simp [Decimal.le, hZero]
  unfold check legs?
  simp only [sameUser_iff, hAmount, bind, Except.bind, pure, Except.pure, throw, throwThe,
    MonadExceptOf.throw]
  split
  · rfl
  · split
    · rfl
    · cases UserId.parseTrimmed? r.senderId <;> cases UserId.parseTrimmed? r.receiverId <;>
        cases WalletId.parseTrimmed? r.senderWalletId <;>
        cases WalletId.parseTrimmed? r.receiverWalletId <;> rfl

/-- A request that fails its checks is refused for that. -/
theorem Transfer.refusal?_of_error {r : Transfer} {e : LedgerError} (hCheck : r.check = .error e)
    (wallet? : WalletId → Option Wallet) : r.refusal? wallet? = some e := by
  rw [check_eq] at hCheck
  unfold refusal?
  split at hCheck
  · next hSame =>
    rw [if_pos hSame]
    exact congrArg some (Except.error.inj hCheck)
  · next hSame =>
    rw [if_neg hSame]
    split at hCheck
    · next hAmount =>
      rw [if_pos hAmount]
      exact congrArg some (Except.error.inj hCheck)
    · next hAmount =>
      rw [if_neg hAmount]
      cases hLegs : r.legs? with
      | none =>
        rw [hLegs] at hCheck
        exact congrArg some (Except.error.inj hCheck)
      | some legs =>
        rw [hLegs] at hCheck
        cases hCheck

/-- A request that passes them is refused for its wallets. -/
theorem Transfer.refusal?_of_ok {r : Transfer} {legs : Legs} (hCheck : r.check = .ok legs)
    (wallet? : WalletId → Option Wallet) : r.refusal? wallet? = legs.refusal? wallet? := by
  rw [check_eq] at hCheck
  unfold refusal?
  split at hCheck
  · cases hCheck
  · next hSame =>
    rw [if_neg hSame]
    split at hCheck
    · cases hCheck
    · next hAmount =>
      rw [if_neg hAmount]
      cases hLegs : r.legs? with
      | none =>
        rw [hLegs] at hCheck
        cases hCheck
      | some legs' =>
        rw [hLegs] at hCheck
        obtain rfl : legs' = legs := Except.ok.inj hCheck
        rfl

-- ---------------------------------------------------------------------------
-- From stage to stage
-- ---------------------------------------------------------------------------

namespace Stage

open Ledger

variable {env : Surroundings} {legs : Legs} {stage stage' stage'' : Stage} {a : Agent}
  {l l' l'' : Ledger} {wallet? : WalletId → Option Wallet} {sender receiver : Wallet}

/-- A transfer by itself gets from one stage to another. -/
structure Gets (env : Surroundings) (legs : Legs) (wallet? : WalletId → Option Wallet) (a : Agent)
    (l : Ledger) (stage : Stage) (l' : Ledger) (stage' : Stage) : Prop where
  alone : Alone legs wallet? a l' stage'
  keeps : l.Keeps l'
  drive_eq : l.drive env a (stage.program legs) [] = l'.drive env a (stage'.program legs) []

theorem Gets.trans (hFirst : Gets env legs wallet? a l stage l' stage')
    (hSecond : Gets env legs wallet? a l' stage' l'' stage'') :
    Gets env legs wallet? a l stage l'' stage'' :=
  ⟨hSecond.alone, hFirst.keeps.trans hSecond.keeps, hFirst.drive_eq.trans hSecond.drive_eq⟩

theorem Alone.gets {answer : Result (stage.call legs).Answer}
    (hAlone : Alone legs wallet? a l stage) (hProper : legs.Proper)
    (hPerform : l.perform env a (stage.call legs) = .replied answer l' []) (hKeeps : l.Keeps l')
    (hNext : stage.after legs answer = .inl stage') :
    Gets env legs wallet? a l stage l' stage' := by
  obtain ⟨hAlone', hDrive⟩ := hAlone.next hProper hPerform hKeeps hNext
  exact ⟨hAlone', hKeeps, hDrive⟩

/-- The copy of a wallet that has just been locked shows what is committed. -/
theorem Holds.shown?_eq {first : Option Wallet} {v : View}
    (hHolds : (lockingSecond first).Holds legs v) : v.shown? = v.wallet? := by
  cases first with
  | none => exact View.shown?_of_nil hHolds
  | some first =>
    obtain ⟨hCopies, hOwns⟩ := hHolds
    funext id
    rw [View.shown?, View.copy?, hCopies, List.find?_singleton]
    by_cases hId : first.id = id
    · rw [decide_eq_true hId, if_pos rfl, ← hId, hOwns.id, hOwns.committed]
      rfl
    · rw [decide_eq_false hId]
      rfl

/-- The first wallet and the second one, if they are their parties', are the sender's and the
receiver's. -/
theorem pair_owned? (legs : Legs) (wallet? : WalletId → Option Wallet) :
    pair legs (legs.lockOrder.1.owned? wallet?) (legs.lockOrder.2.owned? wallet?) =
      (legs.sender.owned? wallet?, legs.receiver.owned? wallet?) := by
  unfold pair Legs.lockOrder
  split <;> rfl

/-- A transfer by itself gets to where it has asked for both wallets, and found those that the parties
own. -/
theorem Alone.paired (hAlone : Alone legs wallet? a l .opening) (hProper : legs.Proper)
    (env : Surroundings) :
    ∃ l', Gets env legs wallet? a l .opening l'
      (ofPair legs (legs.sender.owned? wallet?, legs.receiver.owned? wallet?)) := by
  obtain ⟨l₁, hBegin, hKeeps₁⟩ := exists_perform_begin hAlone.unhindered env a
  have hGets₁ : Gets env legs wallet? a l .opening l₁ .lockingFirst :=
    hAlone.gets hProper hBegin hKeeps₁ rfl
  have hAlone₁ := hGets₁.alone
  -- the first row
  obtain ⟨l₂, hFirst, hKeeps₂⟩ := exists_perform_lock hAlone₁.unhindered hAlone₁.solo
    legs.lockOrder.1.wallet legs.lockOrder.1.user env
  have hNone : (l₁.store.view a).copies = [] := hAlone₁.holds
  rw [View.shown?_of_nil hNone, show (l₁.store.view a).wallet? = wallet? from hAlone₁.unchanged]
    at hFirst
  have hGets₂ : Gets env legs wallet? a l₁ .lockingFirst l₂
      (.lockingSecond (legs.lockOrder.1.owned? wallet?)) :=
    hAlone₁.gets hProper hFirst hKeeps₂ rfl
  have hAlone₂ := hGets₂.alone
  -- the second row, or the first one again
  obtain ⟨l₃, hSecond, hKeeps₃⟩ := exists_perform_lock hAlone₂.unhindered hAlone₂.solo
    legs.lockOrder.2.wallet legs.lockOrder.2.user env
  rw [hAlone₂.holds.shown?_eq, show (l₂.store.view a).wallet? = wallet? from hAlone₂.unchanged]
    at hSecond
  have hGets₃ : Gets env legs wallet? a l₂ (.lockingSecond (legs.lockOrder.1.owned? wallet?)) l₃
      (ofPair legs (pair legs (legs.lockOrder.1.owned? wallet?)
        (legs.lockOrder.2.owned? wallet?))) :=
    hAlone₂.gets hProper hSecond hKeeps₃ rfl
  rw [pair_owned?] at hGets₃
  exact ⟨l₃, hGets₁.trans (hGets₂.trans hGets₃)⟩

/-- A transfer that is undone ends with the error for which it is. -/
theorem Alone.undone {e : LedgerError} (hAlone : Alone legs wallet? a l (.undoing e))
    (env : Surroundings) :
    ∃ l' woken, l.drive env a ((undoing e).program legs) [] = .ended (.error e) l' woken ∧
      l.Keeps l' := by
  obtain ⟨l', woken, hRollback, hKeeps⟩ := exists_perform_rollback hAlone.unhindered env a
  refine ⟨l', woken, ?_, hKeeps⟩
  rw [program_eq]
  exact drive_replied hRollback _ []

/-- A transfer that has found the balance to cover the amount ends by what the receiver's wallet makes
of it. -/
theorem Alone.settled (hAlone : Alone legs wallet? a l (.debiting sender receiver))
    (hProper : legs.Proper) (env : Surroundings) :
    ∃ l' woken, l.drive env a ((Stage.debiting sender receiver).program legs) [] =
      .ended (verdict (receiver.refusal? legs.amount)) l' woken ∧ l.Keeps l' := by
  obtain ⟨hReady, hCopies⟩ := hAlone.holds
  -- the debit is accepted
  obtain ⟨l₁, hDebit, hKeeps₁⟩ := exists_perform_addWithin hAlone.unhindered hAlone.solo sender.id
    legs.amount.neg env
  rw [debit_accepted hProper hAlone.holds rfl] at hDebit
  have hGets₁ : Gets env legs wallet? a l (.debiting sender receiver) l₁
      (.crediting sender receiver) := hAlone.gets hProper hDebit hKeeps₁ rfl
  have hAlone₁ := hGets₁.alone
  obtain ⟨-, sender₁, now₁, hDebited, hCopies₁⟩ := hAlone₁.holds
  -- the credit, to a copy that is as the receiver's wallet was
  have hShown : (l₁.store.view a).shown? receiver.id = some receiver := by
    refine Legs.shown?_receiver hCopies₁ ?_
    rw [Store.id_of_adjust hDebited]
    exact hReady.distinct
  obtain ⟨l₂, hCredit, hKeeps₂⟩ := exists_perform_addWithin hAlone₁.unhindered hAlone₁.solo
    receiver.id legs.amount env
  rw [hShown] at hCredit
  obtain ⟨e, hRefusal, hAdjust⟩ | ⟨hRefusal, sum, -, hAdjust⟩ :=
    receiver.adjust_cases legs.amount (l₁.wallTime env)
  · rw [Wallet.added_eq_error_iff.mpr hAdjust] at hCredit
    have hGets₂ : Gets env legs wallet? a l (.debiting sender receiver) l₂ (.undoing e) :=
      hGets₁.trans (hAlone₁.gets hProper hCredit hKeeps₂ rfl)
    obtain ⟨l₃, woken, hDrive, hKeeps₃⟩ := hGets₂.alone.undone env
    rw [hRefusal]
    exact ⟨l₃, woken, hGets₂.drive_eq.trans hDrive, hGets₂.keeps.trans hKeeps₃⟩
  · rw [Wallet.added_eq_ok hAdjust] at hCredit
    have hGets₂ : Gets env legs wallet? a l (.debiting sender receiver) l₂
        (.committing sender receiver) :=
      hGets₁.trans (hAlone₁.gets hProper hCredit hKeeps₂ rfl)
    obtain ⟨l₃, woken, hCommit, hKeeps₃⟩ := exists_perform_commit hGets₂.alone.unhindered env a
    rw [hRefusal]
    refine ⟨l₃, woken, hGets₂.drive_eq.trans ?_, hGets₂.keeps.trans hKeeps₃⟩
    rw [program_eq]
    exact drive_replied hCommit _ []

/-- A transfer by itself ends by the first reason against it. -/
theorem Alone.judged (hAlone : Alone legs wallet? a l .opening) (hProper : legs.Proper)
    (env : Surroundings) :
    ∃ l' woken, l.drive env a (opening.program legs) [] =
      .ended (verdict (legs.refusal? wallet?)) l' woken ∧ l.Keeps l' := by
  obtain ⟨l₁, hGets⟩ := hAlone.paired hProper env
  -- all that is left where the transfer is undone
  have hUndone : ∀ e, Gets env legs wallet? a l .opening l₁ (.undoing e) →
      ∃ l' woken, l.drive env a (opening.program legs) [] = .ended (.error e) l' woken ∧
        l.Keeps l' := by
    intro e hGets
    obtain ⟨l₂, woken, hDrive, hKeeps⟩ := hGets.alone.undone env
    exact ⟨l₂, woken, hGets.drive_eq.trans hDrive, hGets.keeps.trans hKeeps⟩
  unfold Legs.refusal?
  cases hSender : legs.sender.owned? wallet? with
  | none =>
    rw [hSender] at hGets
    exact hUndone _ hGets
  | some sender =>
    cases hReceiver : legs.receiver.owned? wallet? with
    | none =>
      rw [hSender, hReceiver] at hGets
      exact hUndone _ hGets
    | some receiver =>
      rw [hSender, hReceiver, ofPair] at hGets
      simp only
      by_cases hShort : sender.balance.units < legs.amount.units
      · have hLess : sender.balance.lt legs.amount = true := decide_eq_true hShort
        rw [if_pos hLess] at hGets
        rw [if_pos hShort]
        exact hUndone _ hGets
      · have hLess : ¬ sender.balance.lt legs.amount = true := fun hLess =>
          hShort (of_decide_eq_true hLess)
        rw [if_neg hLess] at hGets
        rw [if_neg hShort]
        obtain ⟨l₂, woken, hDrive, hKeeps⟩ := hGets.alone.settled hProper env
        have hLive : receiver.isDeleted = false := by
          have hOwned := (Option.filter_eq_some_iff.mp hReceiver).2
          simp only [Wallet.isOwnedBy, Bool.and_eq_true, Bool.not_eq_true'] at hOwned
          exact hOwned.1
        rw [Wallet.refusal?, hLive, if_neg Bool.false_ne_true] at hDrive
        exact ⟨l₂, woken, hGets.drive_eq.trans hDrive, hGets.keeps.trans hKeeps⟩

end Stage

-- ---------------------------------------------------------------------------
-- What comes of a transfer
-- ---------------------------------------------------------------------------

/-- Free rows of the same wallets, in the same order, are the same rows. -/
theorem Store.Resting.rows_eq {s s' : Store} (hResting : s.Resting) (hResting' : s'.Resting)
    (hIds : s'.rows.keys = s.rows.keys) (hWallets : s'.wallet? = s.wallet?) :
    s'.rows = s.rows := by
  have hRow : ∀ {t : Store}, t.Resting → ∀ id, t.rows.get? id = (t.wallet? id).map Row.free := by
    intro t hFree id
    unfold Store.wallet?
    cases hGet : t.rows.get? id with
    | none => rfl
    | some row => exact congrArg some (hFree.free hGet)
  refine Table.ext_get? hIds fun id => ?_
  rw [hRow hResting', hRow hResting, hWallets]

variable {env : Surroundings} {l l' : Ledger} {a : Agent} {r : Transfer}

/-- A command that is run to its end leaves an idle ledger idle. -/
theorem Ledger.Idle.of_drive {expiry : Instant} {c : Command} {result : Result Reply}
    {woken : List Agent} (hIdle : l.Idle expiry)
    (hDrive : l.drive env a c.program [] = .ended result l' woken) : l'.Idle expiry := by
  obtain ⟨result', l'', woken', hDrive', hLone⟩ | ⟨fault, l'', woken', hDrive', -⟩ :=
    (hIdle.lone a).drive c.orderly env []
  · rw [hDrive] at hDrive'
    cases hDrive'
    exact hLone.idle
  · rw [hDrive] at hDrive'
    cases hDrive'

/-- A transfer that is run by itself is answered by the first reason against it. -/
theorem Ledger.drive_transfer (hResting : l.store.Resting) (hFree : l.Unhindered) (r : Transfer)
    (env : Surroundings) (a : Agent) :
    ∃ l' woken, l.drive env a (Command.transfer r).program [] =
      .ended (verdict (r.refusal? l.store.wallet?)) l' woken ∧ l.Keeps l' := by
  rw [Command.program, transferring_some]
  cases hCheck : r.check with
  | error e =>
    rw [Transfer.refusal?_of_error hCheck]
    exact ⟨l, [], rfl, rfl, rfl, rfl, .refl l.store⟩
  | ok legs =>
    rw [Transfer.refusal?_of_ok hCheck]
    have hAlone : Stage.Alone legs l.store.wallet? a l .opening :=
      ⟨.of_resting hResting a, hFree, hResting.idle a, rfl⟩
    exact hAlone.judged (Transfer.check_ok hCheck) env

/-- The wallets of a store after an amount has been moved between two of them. -/
def Transfer.Moved (r : Transfer) (wallet? wallet?' : WalletId → Option Wallet) : Prop :=
  ∃ legs sender receiver debited credited now later, r.legs? = some legs ∧
    legs.sender.owned? wallet? = some sender ∧ legs.receiver.owned? wallet? = some receiver ∧
    sender.id = legs.sender.wallet ∧ receiver.id = legs.receiver.wallet ∧
    sender.id ≠ receiver.id ∧
    Decimal.add? sender.balance r.amount.neg = some debited ∧
    Decimal.add? receiver.balance r.amount = some credited ∧
    wallet?' = Function.update
      (Function.update wallet? sender.id
        (some { sender with balance := debited, updatedAt := now }))
      receiver.id (some { receiver with balance := credited, updatedAt := later })

/-- What a transfer does that succeeds. -/
theorem Transfer.moved_of_does {wallet? wallet?' : WalletId → Option Wallet}
    (hDoes : (Job.transfer (some r)).Does wallet? wallet?') : r.Moved wallet? wallet?' := by
  obtain ⟨r', legs, sender, receiver, sender', receiver', now, later, hSome, hCheck, hReady, hDebit,
    hCredit, hWallets⟩ := hDoes
  obtain rfl : r' = r := (Option.some.inj hSome).symm
  have hOwned : ∀ {p : Party} {w : Wallet}, p.Owns ⟨[], wallet?⟩ w → p.owned? wallet? = some w := by
    intro p w hOwns
    rw [Party.owned?, show wallet? p.wallet = some w from hOwns.committed, Option.filter_some,
      if_pos hOwns.owned]
  have hLegs : r'.legs? = some legs ∧ legs.amount = r'.amount := by
    obtain ⟨hSender, hReceiver, hFrom, hInto, hAmount⟩ := legs_of_check hCheck
    refine ⟨?_, hAmount⟩
    unfold legs?
    rw [hSender, hReceiver, hFrom, hInto, ← hAmount]
  obtain ⟨-, hDebited, -, hSender'⟩ := Wallet.adjust_ok hDebit
  obtain ⟨-, hCredited, -, hReceiver'⟩ := Wallet.adjust_ok hCredit
  rw [hLegs.2] at hDebited hCredited
  rw [hSender', hReceiver'] at hWallets
  exact ⟨legs, sender, receiver, _, _, now, later, hLegs.1, hOwned hReady.debtor,
    hOwned hReady.creditor, hReady.debtor.id, hReady.creditor.id, hReady.distinct, hDebited,
    hCredited, hWallets⟩

/-- A transfer over wallets that nobody is at work on, with nothing arranged to fail, is answered by the
first reason against it, and leaves the wallets as they are; or else there is none, and the amount has
been moved. -/
theorem Schedule.execute_transfer {s : Schedule} (hResting : s.ledger.store.Resting)
    (hFree : s.ledger.Unhindered) (r : Transfer) (env : Surroundings)
    (deadline : Option Instant) :
    ∃ s', s.execute env (Command.transfer r).program deadline =
        (s', .result (verdict (r.refusal? s.ledger.store.wallet?)), []) ∧
      s'.ledger.store.Resting ∧ s.ledger.Keeps s'.ledger ∧
      (r.refusal? s.ledger.store.wallet? ≠ none →
        s'.ledger.store.rows = s.ledger.store.rows) ∧
      (r.refusal? s.ledger.store.wallet? = none →
        r.Moved s.ledger.store.wallet? s'.ledger.store.wallet?) := by
  obtain ⟨l', woken, hDrive, hKeeps⟩ := s.ledger.drive_transfer hResting hFree r env s.nextAgent
  have hIdle : s.ledger.Idle (s.ledger.now + s.ledger.keys.lifetime) := ⟨hResting, hFree, rfl⟩
  have hLeaves := Command.leaves_of_drive hIdle hDrive
  have hResting' : l'.store.Resting := (hIdle.of_drive hDrive).resting
  refine ⟨_, execute_of_drive hDrive, hResting', hKeeps, fun hRefused => ?_, fun hNone => ?_⟩
  · obtain ⟨e, hError⟩ := Option.ne_none_iff_exists'.mp hRefused
    rw [hError] at hLeaves
    exact hResting.rows_eq hResting' hKeeps.store.ids hLeaves
  · rw [hNone] at hLeaves
    exact Transfer.moved_of_does hLeaves.2

namespace Crowd

/-- A transfer of 5 coins from the wallet of user 1 to the wallet of user 2. -/
def fiveCoins : Transfer :=
  ⟨(UserId.ofNat 1).text, (WalletId.ofNat 1).text, (UserId.ofNat 2).text, (WalletId.ofNat 2).text,
    coins 5⟩

/-- A schedule over the wallets of users 1 and 2, with nothing waiting. -/
def duoSchedule (first second : Decimal) : Schedule :=
  { Schedule.empty 0 with ledger := duoLedger first second }

theorem unhindered_duoLedger (first second : Decimal) : (duoLedger first second).Unhindered := by
  refine ⟨fun _ => rfl, ?_⟩
  exact Store.ofWallets_induction (P := fun t => t.armed = []) rfl
    fun w _ t t' hInsert hNone => (Store.armed_insert hInsert).trans hNone

/-- Of 10 coins 5 are moved, and there is nothing against it. -/
theorem five_coins_moved :
    let s := duoSchedule (coins 10) (coins 10)
    ∃ s', s.execute stillness (Command.transfer fiveCoins).program none =
        (s', .result (.ok .unit), []) ∧
      fiveCoins.Moved s.ledger.store.wallet? s'.ledger.store.wallet? := by
  intro s
  have hNone : fiveCoins.refusal? s.ledger.store.wallet? = none := by
    decide +kernel
  obtain ⟨s', hExecute, -, -, -, hMoved⟩ := Schedule.execute_transfer
    (resting_duoLedger (coins 10) (coins 10)) (unhindered_duoLedger _ _) fiveCoins stillness none
    (s := s)
  rw [hNone] at hExecute
  exact ⟨s', hExecute, hMoved hNone⟩

/-- A receiver whose balance is far below zero is refused: the two users are two, the amount is above
zero and the sender has it, both wallets are their users', and there is a decimal of the credited
balance. -/
theorem overdrawn_receiver_refused :
    let s := duoSchedule (coins 10) (coins 100).neg
    s.ledger.store.Resting ∧ s.ledger.Unhindered ∧
      ¬ NameOneUser fiveCoins.senderId fiveCoins.receiverId ∧ 0 < fiveCoins.amount.units ∧
      (∃ legs sender receiver credited, fiveCoins.legs? = some legs ∧
        legs.sender.owned? s.ledger.store.wallet? = some sender ∧
        legs.receiver.owned? s.ledger.store.wallet? = some receiver ∧
        fiveCoins.amount.units ≤ sender.balance.units ∧
        Decimal.add? receiver.balance fiveCoins.amount = some credited) ∧
      ∃ s', s.execute stillness (Command.transfer fiveCoins).program none =
        (s', .result (.error .insufficientBalance), []) := by
  intro s
  have hResting : s.ledger.store.Resting := resting_duoLedger _ _
  have hFree : s.ledger.Unhindered := unhindered_duoLedger _ _
  have hFacts : ¬ NameOneUser fiveCoins.senderId fiveCoins.receiverId ∧
      fiveCoins.legs? = some ⟨⟨.ofNat 1, .ofNat 1⟩, ⟨.ofNat 2, .ofNat 2⟩, coins 5⟩ ∧
      fiveCoins.refusal? s.ledger.store.wallet? = some .insufficientBalance := by
    decide +kernel
  obtain ⟨hUsers, hLegs, hRefused⟩ := hFacts
  obtain ⟨l', woken, hDrive, -⟩ :=
    s.ledger.drive_transfer hResting hFree fiveCoins stillness s.nextAgent
  rw [hRefused] at hDrive
  refine ⟨hResting, hFree, hUsers, by decide, ?_, _, Schedule.execute_of_drive hDrive⟩
  exact ⟨_, walletOf 1 (coins 10), walletOf 2 (coins 100).neg, (coins 95).neg, hLegs,
    by decide +kernel, by decide +kernel, by decide, by decide +kernel⟩

end Crowd

end Purse
