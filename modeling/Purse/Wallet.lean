import Purse.Error
import Purse.Decimal.Sum
import Purse.Id.User
import Purse.Id.Wallet
import Purse.Time.Timestamp

/-!
# Wallets

A wallet is one balance that belongs to one user, with a record of when and by whom it was made,
changed and deleted. A deleted wallet stays on record, but belongs to nobody and takes no change.
`Wallet.adjust` is the one way a balance changes.
-/

namespace Purse

/-- A balance account of one user. -/
structure Wallet where
  id : WalletId
  userId : UserId
  balance : Decimal
  createdAt : Timestamp
  updatedAt : Timestamp
  deletedAt : Option Timestamp
  createdBy : UserId
  updatedBy : UserId
  deletedBy : Option UserId
  deriving DecidableEq, Repr, Inhabited

namespace Wallet

/-- A wallet as its owner opens it. -/
def opened (id : WalletId) (userId : UserId) (balance : Decimal) (now : Timestamp) : Wallet where
  id := id
  userId := userId
  balance := balance
  createdAt := now
  updatedAt := now
  deletedAt := none
  createdBy := userId
  updatedBy := userId
  deletedBy := none

/-- Whether the wallet has been deleted. -/
def isDeleted (w : Wallet) : Bool := w.deletedAt.isSome

/-- Whether the wallet is live and belongs to the user. -/
def isOwnedBy (w : Wallet) (user : UserId) : Bool := !w.isDeleted && w.userId == user

/-- The wallet with a signed amount added to its balance. A deleted wallet, a balance without a
decimal and a balance below zero are refused. -/
def adjust (w : Wallet) (amount : Decimal) (now : Timestamp) : Except LedgerError Wallet :=
  if w.isDeleted then .error .emptyWallet
  else match Decimal.add? w.balance amount with
    | none => .error .invalidAmount
    | some balance =>
      if balance.isBelowZero then .error .insufficientBalance
      else .ok { w with balance := balance, updatedAt := now }

end Wallet

end Purse
