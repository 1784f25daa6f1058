/-!
# Errors

Every way a ledger command can be refused, with the stable code an interface reports, the text a
person reads, and whether the refusal comes from looking at the command alone. A refusal is an
ordinary answer. A `Fault` is not: it is an arithmetic limit that a step ran into, and the step has
no answer at all.
-/

namespace Purse

/-- Why a command was refused. -/
inductive LedgerError where
  /-- The command or the wallet it names is missing. -/
  | emptyWallet
  /-- A user id is missing or malformed, or the user does not own the wallet. -/
  | invalidUser
  /-- The amount is zero, not positive where it has to be, or leads to no representable balance. -/
  | invalidAmount
  /-- The opening balance is negative. -/
  | invalidBalance
  /-- The idempotency key is in use, or a wallet with the id is stored already. -/
  | alreadyExists
  /-- No transfer was given. -/
  | invalidTransfer
  /-- Sender and receiver are one user. -/
  | sameAccount
  /-- The balance does not cover the amount. -/
  | insufficientBalance
  /-- The deadline passed before the command ended. -/
  | cancelled
  /-- A collaborator failed, for the reason it gives. -/
  | internal (reason : String)
  deriving DecidableEq, Repr, Inhabited

namespace LedgerError

/-- The stable code of an error. -/
def code : LedgerError → String
  | emptyWallet => "EMPTY_WALLET"
  | invalidUser => "INVALID_USER"
  | invalidAmount => "INVALID_AMOUNT"
  | invalidBalance => "INVALID_BALANCE"
  | alreadyExists => "ALREADY_EXISTS"
  | invalidTransfer => "INVALID_TRANSFER"
  | sameAccount => "SAME_ACCOUNT"
  | insufficientBalance => "INSUFFICIENT_BALANCE"
  | cancelled => "CANCELLED"
  | internal _ => "INTERNAL"

/-- The error as a person reads it. -/
def message : LedgerError → String
  | emptyWallet => "wallet is empty"
  | invalidUser => "invalid user"
  | invalidAmount => "invalid amount"
  | invalidBalance => "invalid balance"
  | alreadyExists => "already exists"
  | invalidTransfer => "invalid transfer"
  | sameAccount => "sender and receiver are the same account"
  | insufficientBalance => "insufficient balance"
  | cancelled => "operation cancelled"
  | internal reason => "internal error: " ++ reason

/-- Whether the error comes from the command's own content and not from a collaborator. -/
def isValidation : LedgerError → Bool
  | emptyWallet | invalidUser | invalidAmount | invalidBalance | invalidTransfer | sameAccount => true
  | alreadyExists | insufficientBalance | cancelled | internal _ => false

/-- The error with a given code; the reason counts for a collaborator's failure only. -/
def ofCode? (code reason : String) : Option LedgerError :=
  [emptyWallet, invalidUser, invalidAmount, invalidBalance, alreadyExists, invalidTransfer,
    sameAccount, insufficientBalance, cancelled, internal reason].find? (·.code == code)

/-- A code names its error: reading the code back, with the same reason at hand, gives the error. -/
theorem ofCode?_code (e : LedgerError) (reason : String) (h : ∀ r, e = internal r → r = reason) :
    ofCode? e.code reason = some e := by
  cases e with
  | internal r => rw [h r rfl]; simp [ofCode?, code]
  | _ => simp [ofCode?, code]

end LedgerError

/-- A result, or an error in its place. -/
abbrev Result (α : Type) := Except LedgerError α

/-- An arithmetic limit that leaves a step without any answer. -/
inductive Fault where
  /-- The instant at which a claim would end lies past the last instant there is. -/
  | instantOverflow
  /-- The sum of all balances lies past the largest decimal. -/
  | totalOverflow
  /-- There is no room for any connection to the database. -/
  | noCapacity
  deriving DecidableEq, Repr, Inhabited

/-- The fault as a person reads it. -/
def Fault.message : Fault → String
  | instantOverflow => "overflow when adding duration to instant"
  | totalOverflow => "Addition overflowed"
  | noCapacity => "capacity must be non-zero"

end Purse
