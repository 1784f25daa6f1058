import Purse.Request
import Purse.Service.Program

/-!
# Topping up

The idempotency key is claimed first, by the same call that looks whether it is in use. That call is
the only guard against applying a request twice. A request that fails its checks has applied nothing,
so its key is given back.
-/

namespace Purse

/-- Tops up the wallet of a request whose key is claimed. -/
def applyTopup (request : Topup) : Program Unit :=
  match request.check with
  | .ok wallet => Program.ask (.add wallet request.amount)
  | .error e => do
    let _ ← (Program.ask (.release request.key)).attempt
    Program.fail e

/-- Tops up a wallet, unless the request's key is in use. -/
def topup (request : Option Topup) : Program Unit := do
  let request ← Program.need .emptyWallet request
  if request.key.isEmpty then Program.fail .emptyWallet
  else
    let inUse : Bool ← Program.ask (.claim request.key)
    if inUse then Program.fail .alreadyExists else applyTopup request

end Purse
