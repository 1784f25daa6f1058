import Purse.Table
import Purse.Wallet

/-!
# The wallet store

Wallets in memory, with row locks and transactions. A row holds a committed wallet, at most one agent
that has locked it, and the agents that wait for the lock, oldest first. A released lock goes straight
to the oldest of them. A transaction holds a working copy of each wallet whose row it has locked, in
the order of locking; readers outside see committed wallets only and never wait.

A call that needs the lock of a row comes in two halves. The first one, `lock`, `addWithin` or `add`,
answers at once if it can, takes a free lock and goes on, or joins the queue and leaves the call
waiting. The second one, `lockGranted`, `addWithinGranted` or `addGranted`, goes on once the agent
holds the row.
-/

namespace Purse

/-- Who takes locks: a running command or an open transaction. -/
abbrev Agent := Nat

/-- A stored wallet with its lock. -/
structure Row where
  /-- The wallet as everybody sees it. -/
  committed : Wallet
  /-- Who has locked the row. -/
  holder : Option Agent
  /-- Who waits for the lock, oldest first. -/
  queue : List Agent
  deriving DecidableEq, Repr

namespace Row

/-- A row that nobody has locked. -/
def free (w : Wallet) : Row := ⟨w, none, []⟩

/-- The row after an agent came for its lock: the agent holds it, or waits as the youngest. -/
def entered (r : Row) (a : Agent) : Row :=
  match r.holder with
  | none => { r with holder := some a }
  | some _ => { r with queue := r.queue ++ [a] }

/-- The row after its holder let go: the oldest waiting agent holds it. -/
def released (r : Row) : Row :=
  match r.queue with
  | [] => { r with holder := none }
  | a :: rest => { r with holder := some a, queue := rest }

/-- The row after an agent gave up its place in the queue. -/
def left (r : Row) (a : Agent) : Row := { r with queue := r.queue.filter (· ≠ a) }

end Row

/-- The working copies of a transaction, in the order in which their rows were locked. -/
abbrev Transaction := List Wallet

/-- The store of all wallets. -/
structure Store where
  rows : Table WalletId Row
  /-- The open transactions, by their agents. -/
  transactions : Table Agent Transaction
  /-- Wallets whose next update within a transaction is made to fail, to try out roll-backs. -/
  armed : List WalletId

/-- What becomes of a call on the store. -/
inductive Store.Step (α : Type) where
  /-- The call is answered. The agents that the answer gave a lock to come with it, oldest first. -/
  | replied (answer : Result α) (store : Store) (woken : List Agent)
  /-- The call waits for the lock of a row. -/
  | waiting (row : WalletId) (store : Store)

namespace Store

/-- The store without wallets. -/
def empty : Store := ⟨Table.empty, Table.empty, []⟩

instance : Inhabited Store := ⟨empty⟩

/-! ## Reading -/

/-- The committed wallet of an id. -/
def wallet? (s : Store) (id : WalletId) : Option Wallet := (s.rows.get? id).map Row.committed

/-- Every committed wallet. -/
def wallets (s : Store) : List Wallet := s.rows.values.map Row.committed

/-- How many wallets there are. -/
def size (s : Store) : Nat := s.rows.size

/-- The live wallets of a user, by ascending id. -/
def walletsOf (s : Store) (user : UserId) : List Wallet :=
  (s.wallets.filter (·.isOwnedBy user)).mergeSort fun a b => a.id.val ≤ b.id.val

/-- The sum of all committed balances. -/
def total? (s : Store) : Option Decimal := Decimal.sum? (s.wallets.map Wallet.balance)

/-- The working copies of an agent's transaction. -/
def copies (s : Store) (a : Agent) : Transaction := (s.transactions.get? a).getD []

/-- The ids of the rows that an agent's transaction has locked, in the order of locking. -/
def locked (s : Store) (a : Agent) : List WalletId := (s.copies a).map Wallet.id

/-- The working copy of a wallet in an agent's transaction. -/
def copy? (s : Store) (a : Agent) (id : WalletId) : Option Wallet :=
  (s.copies a).find? (·.id = id)

/-- Whether an agent holds the lock of a row. -/
def holds (s : Store) (a : Agent) (id : WalletId) : Bool :=
  match s.rows.get? id with
  | some row => row.holder == some a
  | none => false

/-! ## Rows and working copies -/

/-- The store with a row changed. -/
def modifyRow (s : Store) (id : WalletId) (f : Row → Row) : Store :=
  { s with rows := s.rows.modify id f }

/-- The store with a wallet published. -/
def publish (s : Store) (w : Wallet) : Store :=
  s.modifyRow w.id fun row => { row with committed := w }

/-- Lets go of a row's lock. The agent that has it now comes with the store. -/
def release (s : Store) (id : WalletId) : Store × List Agent :=
  match s.rows.get? id with
  | none => (s, [])
  | some row => (s.modifyRow id Row.released, row.queue.take 1)

/-- Lets go of the locks of several rows, in order. -/
def releaseAll (s : Store) : List WalletId → Store × List Agent
  | [] => (s, [])
  | id :: ids =>
    let (s, woken) := s.release id
    let (s, others) := s.releaseAll ids
    (s, woken ++ others)

/-- Adds a working copy to an agent's transaction. -/
def checkOut (s : Store) (a : Agent) (w : Wallet) : Store :=
  { s with transactions := s.transactions.put a (s.copies a ++ [w]) }

/-- Replaces a working copy in an agent's transaction. -/
def revise (s : Store) (a : Agent) (w : Wallet) : Store :=
  { s with
    transactions := s.transactions.put a ((s.copies a).map fun c => if c.id = w.id then w else c) }

/-- Arms the failure of a wallet's next update within a transaction. -/
def arm (s : Store) (id : WalletId) : Store :=
  if id ∈ s.armed then s else { s with armed := s.armed ++ [id] }

/-- Why an armed update fails. -/
def armedFailure (id : WalletId) : LedgerError :=
  .internal ("injected update failure for wallet " ++ id.text)

/-! ## Wallets outside transactions -/

/-- Stores a new wallet. -/
def insert (s : Store) (w : Wallet) : Result Store :=
  if s.rows.contains w.id then .error .alreadyExists
  else .ok { s with rows := s.rows.put w.id (Row.free w) }

/-- Comes for the lock of a row, and goes on if it is free. -/
def acquire {α : Type} (s : Store) (a : Agent) (id : WalletId) (row : Row)
    (granted : Store → Step α) : Step α :=
  let entered := s.modifyRow id (·.entered a)
  if row.holder.isNone then granted entered else .waiting id entered

/-- Goes on adding to a balance at once: the row is held, and let go of again. -/
def addGranted (s : Store) (id : WalletId) (amount : Decimal) (now : Timestamp) : Step Unit :=
  match s.wallet? id with
  | none => .replied (.error .emptyWallet) s []
  | some w =>
    match w.adjust amount now with
    | .error e =>
      let (s, woken) := s.release id
      .replied (.error e) s woken
    | .ok w =>
      let (s, woken) := (s.publish w).release id
      .replied (.ok ()) s woken

/-- Adds to a balance at once. -/
def add (s : Store) (a : Agent) (id : WalletId) (amount : Decimal) (now : Timestamp) : Step Unit :=
  match s.rows.get? id with
  | none => .replied (.error .emptyWallet) s []
  | some row => s.acquire a id row fun s => s.addGranted id amount now

/-! ## Transactions -/

/-- Opens a transaction for an agent. -/
def begin (s : Store) (a : Agent) : Store := { s with transactions := s.transactions.put a [] }

/-- Ends an agent's transaction without publishing anything: its rows are let go of in the order in
which they were locked. -/
def drop (s : Store) (a : Agent) : Store × List Agent :=
  { s with transactions := s.transactions.erase a }.releaseAll (s.locked a)

/-- Publishes the working copies of an agent's transaction, and ends it. -/
def commit (s : Store) (a : Agent) : Store × List Agent :=
  ((s.copies a).foldl publish s).drop a

/-- Goes on with a locking read: the row is held. A wallet that is no longer the user's is let go of
again. -/
def lockGranted (s : Store) (a : Agent) (id : WalletId) (user : UserId) : Step (Option Wallet) :=
  match s.wallet? id with
  | none => .replied (.ok none) s []
  | some w =>
    if w.isOwnedBy user then .replied (.ok (some w)) (s.checkOut a w) []
    else
      let (s, woken) := s.release id
      .replied (.ok none) s woken

/-- Reads a wallet of a user within an agent's transaction and locks its row. A row that is locked
already shows its working copy. The row of a wallet that is not the user's stays as it is. -/
def lock (s : Store) (a : Agent) (id : WalletId) (user : UserId) : Step (Option Wallet) :=
  match s.copy? a id with
  | some w => .replied (.ok (if w.isOwnedBy user then some w else none)) s []
  | none =>
    match s.rows.get? id with
    | none => .replied (.ok none) s []
    | some row =>
      if row.committed.isOwnedBy user then s.acquire a id row fun s => s.lockGranted a id user
      else .replied (.ok none) s []

/-- Adds to a working copy. -/
def addToCopy (s : Store) (a : Agent) (w : Wallet) (amount : Decimal) (now : Timestamp) :
    Step Unit :=
  match w.adjust amount now with
  | .error e => .replied (.error e) s []
  | .ok w => .replied (.ok ()) (s.revise a w) []

/-- Goes on adding within a transaction: the row is held. -/
def addWithinGranted (s : Store) (a : Agent) (id : WalletId) (amount : Decimal) (now : Timestamp) :
    Step Unit :=
  match s.wallet? id with
  | none => .replied (.error .emptyWallet) s []
  | some w => (s.checkOut a w).addToCopy a w amount now

/-- Adds to a balance within an agent's transaction, locking the row if that is still to be done. An
armed failure strikes first, once. -/
def addWithin (s : Store) (a : Agent) (id : WalletId) (amount : Decimal) (now : Timestamp) :
    Step Unit :=
  if id ∈ s.armed then
    .replied (.error (armedFailure id)) { s with armed := s.armed.filter (· ≠ id) } []
  else
    match s.copy? a id with
    | some w => s.addToCopy a w amount now
    | none =>
      match s.rows.get? id with
      | none => .replied (.error .emptyWallet) s []
      | some row => s.acquire a id row fun s => s.addWithinGranted a id amount now

/-- Withdraws an agent that waits for a row: its place in the queue, or the lock if it has been given
the lock meanwhile. -/
def withdraw (s : Store) (a : Agent) (id : WalletId) : Store × List Agent :=
  if s.holds a id then s.release id else (s.modifyRow id (·.left a), [])

end Store

end Purse
