import Purse.Csv.Reader
import Purse.Decimal.Text
import Purse.Text.Blank

/-!
# Rows of a replay

A replay reads commands from records with the columns `type`, `user`, `wallet`, `to_user`,
`to_wallet`, `amount` and `key`. The first record names the columns, in any order and among others.
Every column named needs a field in the record, except that a missing amount is no amount; nor is one
that does not read as a decimal. Where the first record is no text, the columns are taken in the order
above, and the last four may be missing. Blanks around fields do not count.
-/

namespace Purse.Replay

/-- A command as a record gives it. -/
structure Row where
  command : String
  user : String
  wallet : String
  toUser : String
  toWallet : String
  amount : Option Decimal
  key : String
  deriving DecidableEq, Repr

/-- What a column holds. -/
inductive Column where
  | command | user | wallet | toUser | toWallet | amount | key
  deriving DecidableEq, Repr

/-- The columns, in the order in which they stand when they are not named. -/
def Column.all : List Column := [.command, .user, .wallet, .toUser, .toWallet, .amount, .key]

/-- The name of a column. -/
def Column.name : Column → String
  | command => "type"
  | user => "user"
  | wallet => "wallet"
  | toUser => "to_user"
  | toWallet => "to_wallet"
  | amount => "amount"
  | key => "key"

/-- The column of a name, if it is one that counts. -/
def Column.ofName? (name : String) : Option Column := Column.all.find? (·.name == name)

/-- The columns of a file: for each place what is found there, nothing for a column that does not
count. -/
inductive Layout where
  /-- The columns are named. -/
  | named (columns : List (Option Column))
  /-- The columns stand in their own order. -/
  | ordered
  deriving DecidableEq, Repr

/-- The fields of a record, where all of them are text, without blanks around them. -/
def texts? (record : Csv.Record) : Option (List String) :=
  (record.mapM Csv.Field.text?).map (·.map trim)

/-- The layout that a first record gives. -/
def Layout.ofHeader (header : Csv.Record) : Layout :=
  match texts? header with
  | some names => named (names.map Column.ofName?)
  | none => ordered

/-- Pairs the columns that count with the fields at their places. A place without a field is a fault,
unless it is the amount's. -/
def pair : List (Option Column) → List String → Option (List (Column × String))
  | [], _ => some []
  | some c :: cs, f :: fs => (pair cs fs).map ((c, f) :: ·)
  | none :: cs, _ :: fs => pair cs fs
  | some .amount :: cs, [] => (pair cs []).map ((.amount, "") :: ·)
  | _ :: _, [] => none

/-- The row of columns and their fields. The first three columns have to be there. -/
def Row.ofCells? (cells : List (Column × String)) : Option Row := do
  let command ← cells.lookup .command
  let user ← cells.lookup .user
  let wallet ← cells.lookup .wallet
  return {
    command, user, wallet
    toUser := (cells.lookup .toUser).getD ""
    toWallet := (cells.lookup .toWallet).getD ""
    amount := (cells.lookup .amount).bind Decimal.parseScientific?
    key := (cells.lookup .key).getD "" }

/-- The row of a record; nothing for a malformed one. -/
def Row.ofRecord? (layout : Layout) (record : Csv.Record) : Option Row := do
  let fields ← texts? record
  match layout with
  | .ordered => ofCells? (Column.all.zip fields)
  | .named columns =>
    if (columns.filterMap id).Nodup then ofCells? (← pair columns fields) else none

/-- The rows of a file, one for each record after the first: nothing for a malformed one. -/
def rows (bytes : List UInt8) : List (Option Row) :=
  match Csv.records bytes with
  | [] => []
  | header :: records => records.map (Row.ofRecord? (Layout.ofHeader header))

end Purse.Replay
