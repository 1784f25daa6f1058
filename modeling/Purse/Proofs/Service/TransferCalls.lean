import Purse.Service.Transfer
import Purse.Proofs.Crowd.Stages
import Purse.Proofs.Service.Transcript

/-!
# The calls of a transfer

What a transfer asks of its collaborators, whatever they answer. It asks nothing unless it passes its
checks. Otherwise it opens a transaction, and if it has got one it asks for both wallets in the order
of their ids, moves the amount if it has found both and the sender's balance covers it, and ends the
transaction, by a commit if all went well and by a roll-back if not.

## Definitions

* `Legs.Ordered`: the parties in the order of their wallets.
* `Legs.Body`: what is asked within the transaction, and what it comes to.
* `Legs.Protocol`: all that a transfer asks, and its result.
* `firstError?`: the error that a transfer goes by.

## Results

* `meets_lockWallets`, `meets_moveBalance`, `meets_finish`: what each part of a transfer asks.
* `Legs.Protocol.ok_iff`, `Legs.Protocol.error_eq`: the result, read off the transcript.
* `transfer_keeps_protocol`: all of it.
-/

namespace Purse

open Program

/-- The parties of a transfer, the one with the smaller wallet id first. -/
structure Legs.Ordered (legs : Legs) (first second : Party) : Prop where
  parties : first = legs.sender ∧ second = legs.receiver ∨
    first = legs.receiver ∧ second = legs.sender
  ascending : first.wallet.text ≤ second.wallet.text

/-- The reads of both wallets, answered with what was found of each party. -/
def reads (first second : Party) (found : Party → Option Wallet) : List Exchange :=
  [⟨.lock first.wallet first.user, .ok (found first)⟩,
    ⟨.lock second.wallet second.user, .ok (found second)⟩]

/-- The parties' wallets have been found, and the sender's balance covers the amount. -/
structure Legs.Found (legs : Legs) (found : Party → Option Wallet) (sender receiver : Wallet) :
    Prop where
  ofSender : found legs.sender = some sender
  ofReceiver : found legs.receiver = some receiver
  covered : legs.amount.units ≤ sender.balance.units

/-- What a transfer asks within its transaction, and what it comes to. -/
inductive Legs.Body (legs : Legs) (first second : Party) : List Exchange → Result Unit → Prop where
  | firstFailed (e : LedgerError) :
      Body legs first second [⟨.lock first.wallet first.user, .error e⟩] (.error e)
  | secondFailed (found : Option Wallet) (e : LedgerError) :
      Body legs first second
        [⟨.lock first.wallet first.user, .ok found⟩, ⟨.lock second.wallet second.user, .error e⟩]
        (.error e)
  | missing {found : Party → Option Wallet}
      (hMissing : found legs.sender = none ∨ found legs.receiver = none) :
      Body legs first second (reads first second found) (.error .invalidUser)
  | short {found : Party → Option Wallet} {sender receiver : Wallet}
      (hSender : found legs.sender = some sender) (hReceiver : found legs.receiver = some receiver)
      (hShort : sender.balance.units < legs.amount.units) :
      Body legs first second (reads first second found) (.error .insufficientBalance)
  | debitFailed {found : Party → Option Wallet} {sender receiver : Wallet}
      (hFound : legs.Found found sender receiver) (e : LedgerError) :
      Body legs first second
        (reads first second found ++ [⟨.addWithin sender.id legs.amount.neg, .error e⟩]) (.error e)
  | creditFailed {found : Party → Option Wallet} {sender receiver : Wallet}
      (hFound : legs.Found found sender receiver) (e : LedgerError) :
      Body legs first second
        (reads first second found ++ [⟨.addWithin sender.id legs.amount.neg, .ok ()⟩,
          ⟨.addWithin receiver.id legs.amount, .error e⟩]) (.error e)
  | moved {found : Party → Option Wallet} {sender receiver : Wallet}
      (hFound : legs.Found found sender receiver) :
      Body legs first second
        (reads first second found ++ [⟨.addWithin sender.id legs.amount.neg, .ok ()⟩,
          ⟨.addWithin receiver.id legs.amount, .ok ()⟩]) (.ok ())

/-- The one call that ends a transaction, by what its body came to, and the result of both. -/
inductive Closing {α : Type} : Result α → Exchange → Result α → Prop where
  | committed (value : α) : Closing (.ok value) ⟨.commit, .ok ()⟩ (.ok value)
  | commitFailed (value : α) (e : LedgerError) :
      Closing (.ok value) ⟨.commit, .error e⟩ (.error e)
  /-- Whatever the roll-back is answered, the error stays. -/
  | undone (e : LedgerError) (answer : Result Unit) :
      Closing (.error e) ⟨.rollback, answer⟩ (.error e)

/-- All that a transfer asks once it has passed its checks, and its result. -/
inductive Legs.Protocol (legs : Legs) (first second : Party) :
    List Exchange → Result Unit → Prop where
  | notOpened (e : LedgerError) : Protocol legs first second [⟨.begin, .error e⟩] (.error e)
  | closed {body : List Exchange} {outcome result : Result Unit} {close : Exchange}
      (hBody : legs.Body first second body outcome) (hClose : Closing outcome close result) :
      Protocol legs first second (⟨.begin, .ok ()⟩ :: body ++ [close]) result

-- ---------------------------------------------------------------------------
-- The parts of a transfer
-- ---------------------------------------------------------------------------

theorem Legs.ordered_lockOrder (legs : Legs) :
    legs.Ordered legs.lockOrder.1 legs.lockOrder.2 := by
  unfold lockOrder senderLocksFirst
  by_cases hFirst : legs.sender.wallet.text < legs.receiver.wallet.text
  · rw [if_pos (decide_eq_true hFirst)]
    exact ⟨Or.inl ⟨rfl, rfl⟩, String.not_lt.mp (String.lt_asymm hFirst)⟩
  · rw [if_neg (by simpa using hFirst)]
    exact ⟨Or.inr ⟨rfl, rfl⟩, String.not_lt.mp hFirst⟩

theorem Legs.Proper.distinct {legs : Legs} (hProper : legs.Proper) :
    legs.sender ≠ legs.receiver :=
  fun hSame => hProper.users (congrArg Party.user hSame)

/-- What is asked of both wallets, and what is found of the sender's and of the receiver's. -/
def Legs.Reads (legs : Legs) (log : List Exchange) :
    Result (Option Wallet × Option Wallet) → Prop
  | .ok wallets => ∃ found : Party → Option Wallet,
    log = reads legs.lockOrder.1 legs.lockOrder.2 found ∧
      wallets = (found legs.sender, found legs.receiver)
  | .error e => legs.Body legs.lockOrder.1 legs.lockOrder.2 log (.error e)

theorem meets_lockWallets {legs : Legs} (hProper : legs.Proper) :
    (lockWallets legs).Meets legs.Reads := by
  refine Meets.ask_bind (fun first => ?_) fun e => Legs.Body.firstFailed e
  refine Meets.ask_bind (fun second => ?_) fun e => Legs.Body.secondFailed first e
  -- the two parties are not one, so what was found can be told by the party
  refine Meets.done ⟨fun p => if p = legs.lockOrder.1 then first else second, ?_, ?_⟩
  · unfold reads Legs.lockOrder
    split <;> simp [hProper.distinct, hProper.distinct.symm]
  · unfold Legs.lockOrder
    split <;> simp [hProper.distinct, hProper.distinct.symm]

/-- The transfer of an amount within the transaction. -/
theorem meets_moveBalance {legs : Legs} (hProper : legs.Proper) :
    (moveBalance legs).Meets (legs.Body legs.lockOrder.1 legs.lockOrder.2) := by
  refine (meets_lockWallets hProper).bind ?_ fun hFailed => hFailed
  rintro log wallets ⟨found, rfl, rfl⟩
  cases hSender : found legs.sender with
  | none => exact Meets.done (Legs.Body.missing (Or.inl hSender))
  | some sender =>
    cases hReceiver : found legs.receiver with
    | none => exact Meets.done (Legs.Body.missing (Or.inr hReceiver))
    | some receiver =>
      show (if sender.balance.lt legs.amount then Program.fail .insufficientBalance
        else (ask (.addWithin sender.id legs.amount.neg)).bind fun _ =>
          ask (.addWithin receiver.id legs.amount) : Program Unit).Meets _
      by_cases hShort : sender.balance.lt legs.amount = true
      · rw [if_pos hShort]
        exact Meets.done (Legs.Body.short hSender hReceiver (of_decide_eq_true hShort))
      · have hFound : legs.Found found sender receiver :=
          ⟨hSender, hReceiver, Int.not_lt.mp (by simpa [Decimal.lt] using hShort)⟩
        rw [if_neg hShort]
        refine Meets.ask_bind (fun _ => Meets.ask ?_) fun e => Legs.Body.debitFailed hFound e
        rintro (e | _)
        · exact Legs.Body.creditFailed hFound e
        · exact Legs.Body.moved hFound

/-- The end of a transaction. -/
theorem meets_finish {α : Type} (outcome : Result α) :
    (finish outcome).Meets fun log result => ∃ close, log = [close] ∧
      Closing outcome close result := by
  cases outcome with
  | ok value =>
    refine Meets.ask_bind (fun _ => ?_) fun e => ⟨_, rfl, Closing.commitFailed value e⟩
    exact Meets.done ⟨_, rfl, Closing.committed value⟩
  | error e =>
    refine Meets.attempt_ask_bind fun answer => ?_
    exact Meets.done ⟨_, rfl, Closing.undone e answer⟩

-- ---------------------------------------------------------------------------
-- The result, read off the calls
-- ---------------------------------------------------------------------------

/-- The first error that a call was answered with, that of a roll-back aside. -/
def firstError? (log : List Exchange) : Option LedgerError :=
  log.findSome? fun x => if x.call = .rollback then none else x.error?

@[simp] theorem firstError?_nil : firstError? [] = none := rfl

@[simp] theorem firstError?_cons (x : Exchange) (log : List Exchange) :
    firstError? (x :: log) =
      (if x.call = .rollback then none else x.error?).or (firstError? log) := by
  unfold firstError?
  rw [List.findSome?_cons]
  cases (if x.call = .rollback then none else x.error?) <;> rfl

@[simp] theorem firstError?_append (before after : List Exchange) :
    firstError? (before ++ after) = (firstError? before).or (firstError? after) :=
  List.findSome?_append

namespace Legs

variable {legs : Legs} {first second : Party} {log body : List Exchange}
  {outcome result : Result Unit} {e : LedgerError}

theorem Body.commit_notMem (hBody : legs.Body first second body outcome) :
    ⟨.commit, .ok ()⟩ ∉ body := by
  cases hBody <;> simp [reads]

/-- The errors that no call was answered with: a wallet is missing, or the sender's balance is
short. -/
inductive Refused (legs : Legs) (found : Party → Option Wallet) : LedgerError → Prop where
  | missing (hMissing : found legs.sender = none ∨ found legs.receiver = none) :
      Refused legs found .invalidUser
  | short {sender receiver : Wallet} (hSender : found legs.sender = some sender)
      (hReceiver : found legs.receiver = some receiver)
      (hShort : sender.balance.units < legs.amount.units) : Refused legs found .insufficientBalance

theorem Body.error_eq (hBody : legs.Body first second body outcome) (hError : outcome = .error e) :
    firstError? body = some e ∨
      ∃ found, body = reads first second found ∧ legs.Refused found e := by
  cases hBody with
  | firstFailed | secondFailed | debitFailed | creditFailed =>
    obtain rfl := Except.error.inj hError
    exact Or.inl (by simp [reads, Exchange.error?])
  | missing hMissing =>
    obtain rfl := Except.error.inj hError
    exact Or.inr ⟨_, rfl, Refused.missing hMissing⟩
  | short hSender hReceiver hShort =>
    obtain rfl := Except.error.inj hError
    exact Or.inr ⟨_, rfl, Refused.short hSender hReceiver hShort⟩
  | moved hFound => exact absurd hError nofun

theorem Body.firstError?_eq_none (hBody : legs.Body first second body (.ok ())) :
    firstError? body = none := by
  cases hBody
  simp [reads, Exchange.error?]

/-- A transfer succeeds exactly if its commit does. -/
theorem Protocol.ok_iff (hProtocol : legs.Protocol first second log result) :
    result = .ok () ↔ ⟨.commit, .ok ()⟩ ∈ log := by
  cases hProtocol with
  | notOpened e => simp
  | closed hBody hClose =>
    have hBefore := hBody.commit_notMem
    cases hClose with
    | committed | commitFailed => simp [hBefore]
    | undone e answer =>
      have hOther : (⟨.commit, .ok ()⟩ : Exchange) ≠ ⟨.rollback, answer⟩ := by
        intro hSame
        cases congrArg Exchange.call hSame
      simp [hBefore, hOther]

/-- A transfer that fails ends in the first error of its calls, that of the roll-back aside, or is
refused over what it has read. -/
theorem Protocol.error_eq (hProtocol : legs.Protocol first second log result)
    (hError : result = .error e) :
    firstError? log = some e ∨
      ∃ found answer, log = ⟨.begin, .ok ()⟩ :: reads first second found ++ [⟨.rollback, answer⟩] ∧
        legs.Refused found e := by
  cases hProtocol with
  | notOpened e => exact Or.inl (by simpa [Exchange.error?] using hError)
  | @closed body outcome _ _ hBody hClose =>
    cases hClose with
    | committed value => exact absurd hError nofun
    | commitFailed value e =>
      have hNone := hBody.firstError?_eq_none
      obtain rfl := Except.error.inj hError
      exact Or.inl (by simp [hNone, Exchange.error?])
    | undone e' answer =>
      obtain rfl := Except.error.inj hError
      rcases hBody.error_eq rfl with hFirst | ⟨found, rfl, hRefused⟩
      · exact Or.inl (by simp [hFirst, Exchange.error?])
      · exact Or.inr ⟨found, answer, rfl, hRefused⟩

end Legs

/-- What is asked for a transfer: its parties and the amount, if it passes its checks. -/
def checked (request : Option Transfer) : Result Legs :=
  match request with
  | none => .error .invalidTransfer
  | some request => request.check

theorem checked_ok {request : Option Transfer} {legs : Legs} (hCheck : checked request = .ok legs) :
    legs.Proper := by
  cases request with
  | none => cases hCheck
  | some request =>
    simp only [checked] at hCheck
    exact Transfer.check_ok hCheck

theorem transfer_eq (request : Option Transfer) :
    transfer request = (Program.done (checked request)).bind fun legs =>
      (ask .begin).bind fun _ => (moveBalance legs).attempt.bind finish := by
  cases request with
  | none => rfl
  | some request =>
    unfold transfer checked
    simp only [Program.bind_eq, Program.need, Program.bind_ok]

theorem meets_transfer {request : Option Transfer} {legs : Legs}
    (hCheck : checked request = .ok legs) :
    (transfer request).Meets (legs.Protocol legs.lockOrder.1 legs.lockOrder.2) := by
  rw [transfer_eq, hCheck]
  refine Meets.ask_bind (fun _ => ?_) fun e => Legs.Protocol.notOpened e
  have hBody : (moveBalance legs).attempt.Meets fun log outcome =>
      ∃ value, outcome = .ok value ∧ legs.Body legs.lockOrder.1 legs.lockOrder.2 log value :=
    Meets.attempt ((meets_moveBalance (checked_ok hCheck)).mono fun hBody => ⟨_, rfl, hBody⟩)
  refine hBody.bind ?_ ?_
  · rintro log outcome ⟨_, ⟨⟩, hBody⟩
    refine (meets_finish outcome).mono ?_
    rintro _ result ⟨close, rfl, hClose⟩
    exact Legs.Protocol.closed hBody hClose
  · rintro log e ⟨_, ⟨⟩, -⟩

/-- Whatever its collaborators answer, a transfer asks nothing unless it passes its checks, and
otherwise keeps to the protocol. It succeeds exactly if its commit does, and fails with its first
error. -/
theorem transfer_keeps_protocol {σ : Type} (answer : Collaborators σ) (s : σ)
    (request : Option Transfer) :
    match checked request, (transfer request).transcript answer s,
      ((transfer request).run answer s).1 with
    | .error e, log, result => log = [] ∧ result = .error e
    | .ok legs, log, result => ∃ first second, legs.Ordered first second ∧
        legs.Protocol first second log result ∧
        (result = .ok () ↔ ⟨.commit, .ok ()⟩ ∈ log) ∧
        ∀ e, result = .error e → firstError? log = some e ∨
          ∃ found answer, log = ⟨.begin, .ok ()⟩ :: reads first second found ++
            [⟨.rollback, answer⟩] ∧ legs.Refused found e := by
  cases hCheck : checked request with
  | error e =>
    have hFails : transfer request = .done (.error e) := by
      rw [transfer_eq, hCheck]
      rfl
    rw [hFails]
    exact ⟨rfl, rfl⟩
  | ok legs =>
    -- the result is read off the protocol, so no other case has to be looked at
    have hProtocol := meets_transfer hCheck σ answer s
    exact ⟨_, _, legs.ordered_lockOrder, hProtocol, hProtocol.ok_iff,
      fun e hError => hProtocol.error_eq hError⟩

end Purse
