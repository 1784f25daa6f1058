import Purse.Wallet

/-!
# Requests

What callers ask of the ledger, in the form they send it: ids are texts that need not make sense.
The checks that look at a request alone are here as well, each with the order in which it reports the
faults it finds.
-/

namespace Purse

/-- Asks for a new wallet. -/
structure NewWallet where
  userId : String
  /-- The opening balance. -/
  balance : Decimal
  deriving DecidableEq, Repr, Inhabited

/-- Asks to add a signed amount to a wallet, once for each idempotency key. -/
structure Topup where
  walletId : String
  userId : String
  amount : Decimal
  idempotencyKey : String
  deriving DecidableEq, Repr, Inhabited

/-- Asks to move an amount between the wallets of two users. -/
structure Transfer where
  senderId : String
  senderWalletId : String
  receiverId : String
  receiverWalletId : String
  amount : Decimal
  deriving DecidableEq, Repr, Inhabited

namespace NewWallet

/-- Asks for an empty wallet. -/
def forUser (userId : String) : NewWallet := ⟨userId, Decimal.zero⟩

/-- The owner of the wallet to be made. -/
def check (r : NewWallet) : Except LedgerError UserId :=
  match UserId.parseTrimmed? r.userId with
  | none => .error .invalidUser
  | some user => if r.balance.isBelowZero then .error .invalidBalance else .ok user

end NewWallet

namespace Topup

/-- The key under which the request counts: the given one without blanks around it. -/
def key (r : Topup) : String := trim r.idempotencyKey

/-- The wallet to be topped up. Missing fields are found before malformed ones. -/
def check (r : Topup) : Except LedgerError WalletId :=
  if isBlankText r.walletId then .error .emptyWallet
  else if isBlankText r.userId then .error .invalidUser
  else if r.amount.isZero then .error .invalidAmount
  else match WalletId.parseTrimmed? r.walletId with
    | none => .error .emptyWallet
    | some wallet =>
      match UserId.parseTrimmed? r.userId with
      | none => .error .invalidUser
      | some _ => .ok wallet

end Topup

/-- Whether two texts name one user. Ids are compared where both texts are ids, so that their
spelling does not count, and the texts without blanks around them elsewhere. -/
def sameUser (a b : String) : Bool :=
  match UserId.parseTrimmed? a, UserId.parseTrimmed? b with
  | some x, some y => x == y
  | _, _ => trim a == trim b

/-- One side of a transfer: a user and a wallet that has to be the user's. -/
structure Party where
  user : UserId
  wallet : WalletId
  deriving DecidableEq, Repr

/-- A transfer between two parties. -/
structure Legs where
  sender : Party
  receiver : Party
  amount : Decimal
  deriving DecidableEq, Repr

namespace Legs

/-- Whether the sender's wallet is locked before the receiver's: the smaller text goes first. -/
def senderLocksFirst (l : Legs) : Bool := l.sender.wallet.text < l.receiver.wallet.text

/-- The two parties in the order in which their wallets are locked. -/
def lockOrder (l : Legs) : Party × Party :=
  if l.senderLocksFirst then (l.sender, l.receiver) else (l.receiver, l.sender)

end Legs

/-- What is required of each user id and each wallet id of a transfer. -/
def Transfer.required {α : Type} : Option α → Except LedgerError α
  | some a => .ok a
  | none => .error .invalidUser

/-- The parties of a transfer and its amount. -/
def Transfer.check (r : Transfer) : Except LedgerError Legs := do
  if sameUser r.senderId r.receiverId then throw .sameAccount
  if r.amount.le Decimal.zero then throw .invalidAmount
  let sender ← required (UserId.parseTrimmed? r.senderId)
  let receiver ← required (UserId.parseTrimmed? r.receiverId)
  let senderWallet ← required (WalletId.parseTrimmed? r.senderWalletId)
  let receiverWallet ← required (WalletId.parseTrimmed? r.receiverWalletId)
  return ⟨⟨sender, senderWallet⟩, ⟨receiver, receiverWallet⟩, r.amount⟩

end Purse
