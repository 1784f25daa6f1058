import Mathlib.Data.List.Forall2
import Mathlib.Data.Option.Basic
import Purse.Proofs.Result
import Purse.Proofs.Crowd.Programs

/-!
# Programs that ask alike

Two programs are alike when they make the same calls as long as they are answered alike, and then end
alike. Answers are alike when they are one error, or hold wallets that match: one balance, whatever its
scale, and nothing told by their times. The program of each command is alike to itself, so that what a
command does does not depend on how its wallets are written down.

## Definitions

* `Wallet.Matches`, `Reply.Matches`, `Ending.Matches`: what counts in a wallet, a reply, an ending.
* `Call.Matches`: what counts in the answer to a call.
* `Program.Alike`: two programs that ask alike, by whether their transaction is open.

## Results

* `Order.alike`: the program of every command is alike to itself.
-/

namespace Purse

-- ---------------------------------------------------------------------------
-- Wallets and answers that match
-- ---------------------------------------------------------------------------

/-- Two wallets are one and the same but for their times and the scales of their balances. -/
structure Wallet.Matches (w v : Wallet) : Prop where
  id : v.id = w.id
  userId : v.userId = w.userId
  units : v.balance.units = w.balance.units
  isDeleted : v.isDeleted = w.isDeleted
  createdBy : v.createdBy = w.createdBy
  updatedBy : v.updatedBy = w.updatedBy
  deletedBy : v.deletedBy = w.deletedBy

/-- A new wallet is the same whatever the time, as far as it counts. -/
theorem Wallet.matches_opened (id : WalletId) (user : UserId) (balance : Decimal)
    (now now' : Timestamp) : (opened id user balance now).Matches (opened id user balance now') :=
  ⟨rfl, rfl, rfl, rfl, rfl, rfl, rfl⟩

/-- Replies of one kind, with wallets that match, in one order. -/
inductive Reply.Matches : Reply → Reply → Prop where
  | unit : Matches .unit .unit
  | wallet {w v : Wallet} (hWallet : w.Matches v) : Matches (.wallet w) (.wallet v)
  | found {w v : Option Wallet} (hFound : Option.Rel Wallet.Matches w v) :
      Matches (.found w) (.found v)
  | listed {ws vs : List Wallet} (hListed : List.Forall₂ Wallet.Matches ws vs) :
      Matches (.listed ws) (.listed vs)

/-- Endings by one error, by one fault or by replies that match. -/
inductive Ending.Matches : Ending → Ending → Prop where
  | result {r r' : Result Reply} (hResult : Agree Reply.Matches r r') :
      Matches (.result r) (.result r')
  | fault (f : Fault) : Matches (.fault f) (.fault f)

namespace Call

/-- What counts in the answer to a call: of a wallet all but its times, of the wall clock nothing. -/
def Matches : (c : Call) → c.Answer → c.Answer → Prop
  | .lock _ _, (w : Option Wallet), (v : Option Wallet)
  | .get _, (w : Option Wallet), (v : Option Wallet) => Option.Rel Wallet.Matches w v
  | .list _, (ws : List Wallet), (vs : List Wallet) => List.Forall₂ Wallet.Matches ws vs
  | .readClock, _, _ => True
  | _, a, a' => a = a'

/-- Whether a call is one within a transaction. -/
def isWithin : Call → Bool
  | .lock _ _ | .addWithin _ _ | .commit | .rollback => true
  | .begin | .add _ _ | .insert _ | .get _ | .list _ | .claim _ | .release _ | .newId | .readClock =>
    false

/-- The wallet that a call stores. -/
def inserts? : Call → Option Wallet
  | .insert w => some w
  | _ => none

end Call

-- ---------------------------------------------------------------------------
-- Programs
-- ---------------------------------------------------------------------------

/-- Two programs make the same calls, as long as they are answered alike, and end alike. A transaction
is open or not, and each call is made where it is to be made. -/
inductive Program.Alike : Bool → Program Reply → Program Reply → Prop where
  | done {r r' : Result Reply} (hResult : Agree Reply.Matches r r') :
      Alike false (.done r) (.done r')
  | call {isOpen : Bool} {c : Call} {next next' : Result c.Answer → Program Reply}
      (hWithin : c.isWithin = isOpen) (hStores : c.inserts? = none)
      (hNext : ∀ answer answer', Agree c.Matches answer answer' →
        Alike (c.leavesOpen isOpen answer) (next answer) (next' answer')) :
      Alike isOpen (.call c next) (.call c next')
  /-- The wallets that are stored match, and have something in them. -/
  | insert {w v : Wallet} {next next' : Result Unit → Program Reply} (hWallet : w.Matches v)
      (hBalance : w.balance.isBelowZero = false)
      (hNext : ∀ answer, Alike false (next answer) (next' answer)) :
      Alike false (.call (.insert w) next) (.call (.insert v) next')

namespace Program.Alike

variable (legs : Legs)

-- ---------------------------------------------------------------------------
-- Transfers
-- ---------------------------------------------------------------------------

theorem undoing (e : LedgerError) : Alike true ((Stage.undoing e).program legs)
    ((Stage.undoing e).program legs) := by
  rw [Stage.program_eq]
  refine .call rfl rfl fun answer answer' _ => ?_
  cases answer <;> cases answer' <;> exact .done (.error e)

theorem committing (s r s' r' : Wallet) : Alike true ((Stage.committing s r).program legs)
    ((Stage.committing s' r').program legs) := by
  rw [Stage.program_eq, Stage.program_eq]
  refine .call (c := .commit) rfl rfl fun answer answer' hAnswer => ?_
  cases hAnswer with
  | ok hValues => exact .done (.ok .unit)
  | error e => exact .done (.error e)

/-- An amount is added to the wallet of one id. -/
theorem addWithin {id id' : WalletId} {amount : Decimal} {next next' : Result Unit → Program Reply}
    (hId : id' = id) (hOk : Alike true (next (.ok ())) (next' (.ok ())))
    (hError : ∀ e, Alike true (next (.error e)) (next' (.error e))) :
    Alike true (.call (.addWithin id amount) next) (.call (.addWithin id' amount) next') := by
  subst hId
  refine .call rfl rfl fun answer answer' hAnswer => ?_
  cases hAnswer with
  | ok hValues => exact hOk
  | error e => exact hError e

theorem crediting {s r s' r' : Wallet} (hReceiver : r.Matches r') :
    Alike true ((Stage.crediting s r).program legs) ((Stage.crediting s' r').program legs) := by
  rw [Stage.program_eq, Stage.program_eq]
  exact addWithin hReceiver.id (committing legs s r s' r') (undoing legs)

theorem debiting {s r s' r' : Wallet} (hSender : s.Matches s') (hReceiver : r.Matches r') :
    Alike true ((Stage.debiting s r).program legs) ((Stage.debiting s' r').program legs) := by
  have hCrediting : Alike true ((Stage.crediting s r).program legs)
      ((Stage.crediting s' r').program legs) := crediting legs hReceiver
  rw [Stage.program_eq, Stage.program_eq]
  exact addWithin hSender.id hCrediting (undoing legs)

/-- Whether a balance covers an amount does not depend on how it is written down. -/
theorem lt_eq {w v : Wallet} (hWallet : w.Matches v) (amount : Decimal) :
    v.balance.lt amount = w.balance.lt amount := by
  unfold Decimal.lt
  rw [hWallet.units]

theorem ofPair {s r s' r' : Option Wallet} (hSender : Option.Rel Wallet.Matches s s')
    (hReceiver : Option.Rel Wallet.Matches r r') :
    Alike true ((Stage.ofPair legs (s, r)).program legs)
      ((Stage.ofPair legs (s', r')).program legs) := by
  cases hSender with
  | none => exact undoing legs _
  | some hSender =>
    cases hReceiver with
    | none => exact undoing legs _
    | some hReceiver =>
      unfold Stage.ofPair
      simp only [lt_eq hSender]
      split
      · exact undoing legs _
      · exact debiting legs hSender hReceiver

theorem lockingSecond {first first' : Option Wallet}
    (hFirst : Option.Rel Wallet.Matches first first') :
    Alike true ((Stage.lockingSecond first).program legs)
      ((Stage.lockingSecond first').program legs) := by
  rw [Stage.program_eq, Stage.program_eq]
  refine .call (c := .lock legs.lockOrder.2.wallet legs.lockOrder.2.user) rfl rfl
    fun answer answer' hAnswer => ?_
  cases hAnswer with
  | error e => exact undoing legs e
  | @ok second second' hSecond =>
    show Alike true ((Stage.ofPair legs (Stage.pair legs first second)).program legs)
      ((Stage.ofPair legs (Stage.pair legs first' second')).program legs)
    unfold Stage.pair
    split
    · exact ofPair legs hFirst hSecond
    · exact ofPair legs hSecond hFirst

theorem lockingFirst : Alike true (Stage.lockingFirst.program legs)
    (Stage.lockingFirst.program legs) := by
  rw [Stage.program_eq]
  refine .call (c := .lock legs.lockOrder.1.wallet legs.lockOrder.1.user) rfl rfl
    fun answer answer' hAnswer => ?_
  cases hAnswer with
  | error e => exact undoing legs e
  | ok hFirst => exact lockingSecond legs hFirst

theorem transferring (request : Option Transfer) :
    Alike false (Purse.transferring request) (Purse.transferring request) := by
  cases request with
  | none => exact .done (.error .invalidTransfer)
  | some request =>
    rw [transferring_some]
    cases request.check with
    | error e => exact .done (.error e)
    | ok legs =>
      show Alike false (Stage.opening.program legs) (Stage.opening.program legs)
      rw [Stage.program_eq]
      refine .call (c := .begin) rfl rfl fun answer answer' hAnswer => ?_
      cases hAnswer with
      | ok hValues => exact lockingFirst legs
      | error e => exact .done (.error e)

-- ---------------------------------------------------------------------------
-- The other commands
-- ---------------------------------------------------------------------------

theorem toppingUp (request : Option Topup) :
    Alike false (Purse.toppingUp request) (Purse.toppingUp request) := by
  cases request with
  | none => exact .done (.error .emptyWallet)
  | some request =>
    rw [toppingUp_some]
    split
    · exact .done (.error .emptyWallet)
    · refine .call (c := .claim request.key) rfl rfl fun answer answer' hAnswer => ?_
      cases hAnswer with
      | error e => exact .done (.error e)
      | @ok inUse inUse' hValues =>
        obtain rfl : inUse = inUse' := hValues
        cases inUse with
        | true => exact .done (.error .alreadyExists)
        | false =>
          show Alike false request.applying request.applying
          unfold Topup.applying
          split
          · refine .call (c := .add _ _) rfl rfl fun answer answer' hAnswer => ?_
            cases hAnswer with
            | ok hValues => exact .done (.ok .unit)
            | error e => exact .done (.error e)
          · refine .call (c := .release _) rfl rfl fun answer answer' hAnswer => ?_
            exact .done (.error _)

theorem creation (request : Option NewWallet) :
    Alike false (Purse.creation request) (Purse.creation request) := by
  cases request with
  | none => exact .done (.error .emptyWallet)
  | some request =>
    rw [creation_some]
    cases hCheck : request.check with
    | error e => exact .done (.error e)
    | ok user =>
      refine .call (c := .newId) rfl rfl fun answer answer' hAnswer => ?_
      cases hAnswer with
      | error e => exact .done (.error e)
      | @ok id id' hId =>
        obtain rfl : id = id' := hId
        refine .call (c := .readClock) rfl rfl fun answer answer' hAnswer => ?_
        cases hAnswer with
        | error e => exact .done (.error e)
        | @ok now now' hNow =>
          have hOpened := Wallet.matches_opened id user request.balance now now'
          refine .insert hOpened (NewWallet.check_ok hCheck) fun answer => ?_
          cases answer with
          | ok stored => exact .done (.ok (.wallet hOpened))
          | error e => exact .done (.error e)

theorem command (c : Command) : Alike false c.program c.program := by
  cases c with
  | createWallet userId => exact creation _
  | topup request => exact toppingUp _
  | transfer request => exact transferring _
  | wallet walletId =>
    rw [program_wallet]
    cases WalletId.parseTrimmed? walletId with
    | none => exact .done (.error .emptyWallet)
    | some id =>
      refine .call (c := .get id) rfl rfl fun answer answer' hAnswer => ?_
      cases hAnswer with
      | error e => exact .done (.error e)
      | ok hFound => exact .done (.ok (.found hFound))
  | userWallets userId =>
    rw [program_userWallets]
    cases UserId.parseTrimmed? userId with
    | none => exact .done (.error .invalidUser)
    | some user =>
      refine .call (c := .list user) rfl rfl fun answer answer' hAnswer => ?_
      cases hAnswer with
      | error e => exact .done (.error e)
      | ok hListed => exact .done (.ok (.listed hListed))

end Program.Alike

-- ---------------------------------------------------------------------------
-- Commands in every form
-- ---------------------------------------------------------------------------

/-- A command in any of the forms in which the ledger takes one. -/
inductive Order where
  | create (request : Option NewWallet)
  | topup (request : Option Topup)
  | transfer (request : Option Transfer)
  | command (c : Command)

/-- The program of a command. -/
def Order.program : Order → Program Reply
  | create request => creation request
  | topup request => toppingUp request
  | transfer request => transferring request
  | command c => c.program

/-- The program of every command is alike to itself. -/
theorem Order.alike (o : Order) : Program.Alike false o.program o.program := by
  cases o with
  | create request => exact .creation request
  | topup request => exact .toppingUp request
  | transfer request => exact .transferring request
  | command c => exact .command c

end Purse
