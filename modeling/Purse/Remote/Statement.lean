import Purse.Remote.Numeric
import Purse.Wallet

/-!
# Statements

What is asked of a database that keeps the wallets in a table, row by row. A statement has a text with
numbered places, the values that go into them, and an answer of a kind of its own: nothing, the number
of rows it changed, or the rows it found. In place of an answer there may be a fault. Two kinds of
refusal mean something to the ledger, by their state: a row that is there already, and a balance that
would fall below zero.
-/

namespace Purse.Remote

/-- A value that goes with a statement. -/
inductive Value where
  | text (s : String)
  | user (u : UserId)
  | amount (d : Decimal)
  | time (t : Timestamp)
  deriving DecidableEq, Repr

/-- What is asked of the database. -/
inductive Statement where
  /-- Opens a transaction. -/
  | begin
  /-- Publishes the changes of the transaction. -/
  | commit
  /-- Undoes the changes of the transaction. -/
  | rollback
  /-- Adds a row. -/
  | insert (w : Wallet)
  /-- Adds to the balance of a live wallet. -/
  | add (wallet : WalletId) (amount : Decimal)
  /-- Finds a live wallet of a user, and locks its row until the transaction ends. -/
  | lock (wallet : WalletId) (user : UserId)
  /-- Finds a wallet. -/
  | get (wallet : WalletId)
  /-- Finds the live wallets of a user, by ascending id. -/
  | list (user : UserId)
  deriving DecidableEq, Repr

/-- A row of wallets as it comes from the database. Any column may be missing. -/
structure Record where
  id : Option String
  userId : Option UserId
  balance : Option Numeric
  createdAt : Option Timestamp
  updatedAt : Option Timestamp
  deletedAt : Option Timestamp
  createdBy : Option UserId
  updatedBy : Option UserId
  deletedBy : Option UserId
  deriving DecidableEq, Repr, Inhabited

namespace Statement

/-- Every column, in the order in which rows are read. -/
def columns : String :=
  "id, user_id, balance, created_at, updated_at, deleted_at, created_by, updated_by, deleted_by"

/-- The text of a statement. -/
def text : Statement → String
  | begin => "BEGIN"
  | commit => "COMMIT"
  | rollback => "ROLLBACK"
  | insert _ =>
    "INSERT INTO wallets (id, user_id, balance, created_at, updated_at, created_by, updated_by) "
      ++ "VALUES ($1, $2, $3, $4, $5, $6, $7)"
  | add _ _ =>
    "UPDATE wallets SET balance = balance + $2, updated_at = now() "
      ++ "WHERE id = $1 AND deleted_at IS NULL"
  | lock _ _ =>
    "SELECT " ++ columns ++ " FROM wallets "
      ++ "WHERE id = $1 AND user_id = $2 AND deleted_at IS NULL FOR UPDATE"
  | get _ => "SELECT " ++ columns ++ " FROM wallets WHERE id = $1"
  | list _ =>
    "SELECT " ++ columns ++ " FROM wallets WHERE user_id = $1 AND deleted_at IS NULL ORDER BY id"

/-- The values of a statement, by the numbers of their places. A new wallet is not deleted, so that
nothing is said about its deletion. -/
def values : Statement → List Value
  | begin | commit | rollback => []
  | insert w => [.text w.id.text, .user w.userId, .amount w.balance, .time w.createdAt,
      .time w.updatedAt, .user w.createdBy, .user w.updatedBy]
  | add wallet amount => [.text wallet.text, .amount amount]
  | lock wallet user => [.text wallet.text, .user user]
  | get wallet => [.text wallet.text]
  | list user => [.user user]

/-- What a statement is answered with. -/
def Answer : Statement → Type
  | begin | commit | rollback => Unit
  | insert _ | add _ _ => Nat
  | lock _ _ | get _ | list _ => List Record

end Statement

/-- Why a statement has no answer that can be used. -/
inductive DatabaseFault where
  /-- The database refused the statement, in some state and with some message. -/
  | refused (state message : String)
  /-- A column that every wallet has is missing. -/
  | missing (column : String)
  /-- A column holds what the ledger has no value for. -/
  | unreadable (column reason : String)
  /-- The database could not be reached. -/
  | lost (reason : String)
  /-- The database cannot be reached under its name at all. -/
  | misnamed (reason : String)
  deriving DecidableEq, Repr

namespace DatabaseFault

/-- The state of a refusal because a row with the id is there already. -/
def duplicate : String := "23505"

/-- The state of a refusal because a balance would fall below zero. -/
def belowZero : String := "23514"

/-- The fault as a person reads it. -/
def message : DatabaseFault → String
  | refused _ message => "error returned from database: " ++ message
  | missing column => message.decoding column "unexpected null; try decoding as an `Option`"
  | unreadable column reason => message.decoding column reason
  | lost reason => "error communicating with database: " ++ reason
  | misnamed reason => "error with configuration: " ++ reason
where
  /-- A column could not be read. -/
  decoding (column reason : String) : String :=
    "error occurred while decoding column \"" ++ column ++ "\": " ++ reason

/-- What a fault means to the ledger. -/
def toError (f : DatabaseFault) : LedgerError :=
  match f with
  | refused state _ =>
    if state = duplicate then .alreadyExists
    else if state = belowZero then .insufficientBalance
    else .internal f.message
  | _ => .internal f.message

end DatabaseFault

namespace Record

/-- The row of a wallet. -/
def ofWallet (w : Wallet) : Record where
  id := some w.id.text
  userId := some w.userId
  balance := some (Numeric.ofDecimal w.balance)
  createdAt := some w.createdAt
  updatedAt := some w.updatedAt
  deletedAt := w.deletedAt
  createdBy := some w.createdBy
  updatedBy := some w.updatedBy
  deletedBy := w.deletedBy

/-- A column that has to be there. -/
def need {α : Type} (column : String) : Option α → Result α
  | some a => .ok a
  | none => .error (DatabaseFault.missing column).toError

/-- The balance of a row. -/
def readBalance (n : Numeric) : Result Decimal :=
  match n.toDecimal? with
  | some d => .ok d
  | none => .error (DatabaseFault.unreadable "balance" "number out of range").toError

/-- The id of a row. -/
def readId (text : String) : Result WalletId :=
  match WalletId.parse text with
  | .ok id => .ok id
  | .error e => .error (.internal e.message)

/-- The wallet of a row. -/
def toWallet (r : Record) : Result Wallet := do
  let id ← readId (← need "id" r.id)
  let userId ← need "user_id" r.userId
  let balance ← readBalance (← need "balance" r.balance)
  let createdAt ← need "created_at" r.createdAt
  let updatedAt ← need "updated_at" r.updatedAt
  let createdBy ← need "created_by" r.createdBy
  let updatedBy ← need "updated_by" r.updatedBy
  return ⟨id, userId, balance, createdAt, updatedAt, r.deletedAt, createdBy, updatedBy, r.deletedBy⟩

end Record

end Purse.Remote
