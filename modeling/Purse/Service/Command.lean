import Purse.Service.Creation
import Purse.Service.Topup
import Purse.Service.Transfer

/-!
# Commands

The commands that callers give to the ledger, and the program of each. `Reply` holds what any of them
answers.
-/

namespace Purse

/-- A command to the ledger. -/
inductive Command where
  /-- Opens an empty wallet for a user. -/
  | createWallet (userId : String)
  /-- Adds an amount to a wallet. -/
  | topup (request : Topup)
  /-- Moves an amount between two wallets. -/
  | transfer (request : Transfer)
  /-- Reads a wallet. -/
  | wallet (walletId : String)
  /-- Reads the live wallets of a user. -/
  | userWallets (userId : String)
  deriving DecidableEq, Repr

/-- What a command answers when it succeeds. -/
inductive Reply where
  | unit
  | wallet (w : Wallet)
  | found (w : Option Wallet)
  | listed (ws : List Wallet)
  deriving DecidableEq, Repr, Inhabited

/-- Makes a wallet. -/
def creation (request : Option NewWallet) : Program Reply := do
  let wallet ← create request
  return .wallet wallet

/-- Tops up. -/
def toppingUp (request : Option Topup) : Program Reply := do
  topup request
  return .unit

/-- Transfers. -/
def transferring (request : Option Transfer) : Program Reply := do
  transfer request
  return .unit

/-- The program of a command. -/
def Command.program : Command → Program Reply
  | createWallet userId => creation (some (NewWallet.forUser userId))
  | topup request => toppingUp (some request)
  | transfer request => transferring (some request)
  | wallet walletId => do
    let id ← Program.need .emptyWallet (WalletId.parseTrimmed? walletId)
    let w : Option Wallet ← Program.ask (.get id)
    return .found w
  | userWallets userId => do
    let id ← Program.need .invalidUser (UserId.parseTrimmed? userId)
    let ws : List Wallet ← Program.ask (.list id)
    return .listed ws

end Purse
