import Purse.Request
import Purse.Service.Program

/-!
# Making wallets

A new wallet gets its id from the mint, its times from the clock, and is stored. Nothing is made for a
request that fails its checks.
-/

namespace Purse

/-- Makes the wallet that is asked for. -/
def create (request : Option NewWallet) : Program Wallet := do
  let request ← Program.need .emptyWallet request
  let user ← Program.done request.check
  let id : WalletId ← Program.ask .newId
  let now : Timestamp ← Program.ask .readClock
  let wallet := Wallet.opened id user request.balance now
  let _ ← Program.ask (.insert wallet)
  return wallet

end Purse
