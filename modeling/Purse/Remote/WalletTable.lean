import Purse.Remote.Database

/-!
# A database of wallets

What a database does with the statements, one connection at a time: it keeps rows with ids of their
own, of which no balance is below zero, and the rows as they were when the open transaction began. A
statement that would break one of the two rules is refused and changes nothing.
-/

namespace Purse.Remote

/-- The rows of a database, at a moment of wall-clock time. -/
structure WalletTable where
  now : Timestamp
  rows : List Record
  /-- The rows as they were when the open transaction began. -/
  saved : Option (List Record)

namespace WalletTable

/-- A database without rows. -/
def empty (now : Timestamp) : WalletTable := ⟨now, [], none⟩

/-- Whether a row is that of a wallet. -/
def isRowOf (wallet : WalletId) (r : Record) : Bool := r.id == some wallet.text

/-- Whether a row is live and belongs to a user. -/
def belongsTo (user : UserId) (r : Record) : Bool := r.userId == some user && r.deletedAt.isNone

/-- Whether a row is that of a live wallet. -/
def isLiveRowOf (wallet : WalletId) (r : Record) : Bool := isRowOf wallet r && r.deletedAt.isNone

/-- A row with an amount added to its balance. -/
def adjusted (now : Timestamp) (amount : Numeric) (r : Record) : Record :=
  { r with balance := r.balance.map (·.add amount), updatedAt := some now }

/-- Whether the balance of a row is below zero. -/
def breaksRule (r : Record) : Bool := r.balance.any (·.isBelowZero)

/-- The answer to a statement that breaks the rule on balances. -/
def refusal : DatabaseFault := .refused DatabaseFault.belowZero "balance below zero"

/-- Adds a row. -/
def insert (t : WalletTable) (w : Wallet) : Except DatabaseFault Nat × WalletTable :=
  let row := Record.ofWallet w
  if breaksRule row then (.error refusal, t)
  else if t.rows.any (isRowOf w.id) then
    (.error (.refused DatabaseFault.duplicate "duplicate id"), t)
  else (.ok 1, { t with rows := t.rows ++ [row] })

/-- Adds to the balance of a live wallet. -/
def add (t : WalletTable) (wallet : WalletId) (amount : Decimal) :
    Except DatabaseFault Nat × WalletTable :=
  let after := adjusted t.now (Numeric.ofDecimal amount)
  let found := t.rows.filter (isLiveRowOf wallet)
  if found.any fun r => breaksRule (after r) then (.error refusal, t)
  else
    (.ok found.length,
      { t with rows := t.rows.map fun r => if isLiveRowOf wallet r then after r else r })

/-- The live rows of a user, by ascending id. -/
def list (t : WalletTable) (user : UserId) : List Record :=
  (t.rows.filter (belongsTo user)).mergeSort fun a b => decide (a.id.getD "" ≤ b.id.getD "")

/-- Answers a statement. -/
def answer : Database WalletTable
  | .begin, t => (.ok (), { t with saved := some t.rows })
  | .commit, t => (.ok (), { t with saved := none })
  | .rollback, t => (.ok (), { t with rows := t.saved.getD t.rows, saved := none })
  | .insert w, t => t.insert w
  | .add wallet amount, t => t.add wallet amount
  | .lock wallet user, t =>
    (.ok (t.rows.filter fun r => isRowOf wallet r && belongsTo user r), t)
  | .get wallet, t => (.ok (t.rows.filter (isRowOf wallet)), t)
  | .list user, t => (.ok (t.list user), t)

end WalletTable

end Purse.Remote
