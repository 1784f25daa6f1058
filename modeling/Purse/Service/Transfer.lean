import Purse.Request
import Purse.Service.Program

/-!
# Transfers

Both wallets are locked before the balance is looked at, the one with the smaller id first, whichever
of them sends. Two transfers in opposite directions so queue at the same row, and neither holds what
the other waits for. All that follows the checks runs in one transaction, which is committed when
everything went well and rolled back otherwise.
-/

namespace Purse

/-- Ends a transaction by what its body came to: a commit after success, a rollback after an error.
A rollback that fails does not hide the error. -/
def finish {α : Type} (outcome : Result α) : Program α :=
  match outcome with
  | .ok value => do
    let _ ← Program.ask .commit
    return value
  | .error e => do
    let _ ← (Program.ask .rollback).attempt
    Program.fail e

/-- Reads and locks the wallet of a party. -/
def lockParty (p : Party) : Program (Option Wallet) :=
  Program.ask (.lock p.wallet p.user)

/-- Locks both wallets in the order of their ids, and gives the sender's and the receiver's. -/
def lockWallets (legs : Legs) : Program (Option Wallet × Option Wallet) := do
  let first ← lockParty legs.lockOrder.1
  let second ← lockParty legs.lockOrder.2
  return if legs.senderLocksFirst then (first, second) else (second, first)

/-- Moves the amount within a transaction. -/
def moveBalance (legs : Legs) : Program Unit := do
  match ← lockWallets legs with
  | (some sender, some receiver) =>
    if sender.balance.lt legs.amount then Program.fail .insufficientBalance
    else
      let _ ← Program.ask (.addWithin sender.id legs.amount.neg)
      Program.ask (.addWithin receiver.id legs.amount)
  | _ => Program.fail .invalidUser

/-- Moves an amount between two wallets, all of it or nothing. -/
def transfer (request : Option Transfer) : Program Unit := do
  let request ← Program.need .invalidTransfer request
  let legs ← Program.done request.check
  let _ ← Program.ask .begin
  let outcome ← (moveBalance legs).attempt
  finish outcome

end Purse
