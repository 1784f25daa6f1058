import Purse.Json.Form
import Purse.Request

/-!
# The forms of wallets and requests

The fields of each structure that has a form in JSON, in the order in which they are written. The time
and the user of a deletion may be missing; so may the opening balance of a new wallet, which then is
zero.
-/

namespace Purse.Json

/-- A time, or nothing. -/
def Cell.ofTime? : Option Timestamp → Cell
  | some t => time t
  | none => absent

/-- A user id, or nothing. -/
def Cell.ofUserId? : Option UserId → Cell
  | some id => userId id
  | none => absent

/-- The time in a field that may be empty. -/
def Cell.toTime? : Cell → Option Timestamp
  | time t => some t
  | _ => none

/-- The user id in a field that may be empty. -/
def Cell.toUserId? : Cell → Option UserId
  | userId id => some id
  | _ => none

/-- How a wallet stands in JSON. -/
def walletForm : Form Wallet where
  fields :=
    [{ name := "id", kind := .walletId },
     { name := "user_id", kind := .userId },
     { name := "balance", kind := .decimal },
     { name := "created_at", kind := .time },
     { name := "updated_at", kind := .time },
     { name := "deleted_at", kind := .optionalTime, ifMissing := some .absent },
     { name := "created_by", kind := .userId },
     { name := "updated_by", kind := .userId },
     { name := "deleted_by", kind := .optionalUserId, ifMissing := some .absent }]
  cells w :=
    [.walletId w.id, .userId w.userId, .decimal w.balance, .time w.createdAt, .time w.updatedAt,
      .ofTime? w.deletedAt, .userId w.createdBy, .userId w.updatedBy, .ofUserId? w.deletedBy]
  ofCells?
    | [.walletId id, .userId userId, .decimal balance, .time createdAt, .time updatedAt, deletedAt,
        .userId createdBy, .userId updatedBy, deletedBy] =>
      some { id, userId, balance, createdAt, updatedAt, createdBy, updatedBy
             deletedAt := deletedAt.toTime?, deletedBy := deletedBy.toUserId? }
    | _ => none

/-- How a request for a wallet stands in JSON. -/
def newWalletForm : Form NewWallet where
  fields :=
    [{ name := "user_id", kind := .text },
     { name := "balance", kind := .decimal
       ifMissing := some (.decimal Decimal.zero), ifShort := some (.decimal Decimal.zero) }]
  cells r := [.text r.userId, .decimal r.balance]
  ofCells?
    | [.text userId, .decimal balance] => some { userId, balance }
    | _ => none

/-- How a request for a top-up stands in JSON. -/
def topupForm : Form Topup where
  fields :=
    [{ name := "wallet_id", kind := .text },
     { name := "user_id", kind := .text },
     { name := "amount", kind := .decimal },
     { name := "idempotency_key", kind := .text }]
  cells r := [.text r.walletId, .text r.userId, .decimal r.amount, .text r.idempotencyKey]
  ofCells?
    | [.text walletId, .text userId, .decimal amount, .text idempotencyKey] =>
      some { walletId, userId, amount, idempotencyKey }
    | _ => none

/-- How a request for a transfer stands in JSON. -/
def transferForm : Form Transfer where
  fields :=
    [{ name := "sender_id", kind := .text },
     { name := "sender_wallet_id", kind := .text },
     { name := "receiver_id", kind := .text },
     { name := "receiver_wallet_id", kind := .text },
     { name := "amount", kind := .decimal }]
  cells r :=
    [.text r.senderId, .text r.senderWalletId, .text r.receiverId, .text r.receiverWalletId,
      .decimal r.amount]
  ofCells?
    | [.text senderId, .text senderWalletId, .text receiverId, .text receiverWalletId,
        .decimal amount] =>
      some { senderId, senderWalletId, receiverId, receiverWalletId, amount }
    | _ => none

/-- Reads a document and writes it again. -/
def rewritten {α : Type} (form : Form α) (text : String) : Except Flaw String :=
  (form.read text).map form.write

/-- Reads a value that stands alone and writes it again. -/
def rewrittenLone (k : Kind) (text : String) : Except Flaw String :=
  (readLone k text).map writeCell

end Purse.Json
