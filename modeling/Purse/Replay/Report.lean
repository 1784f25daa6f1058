import Purse.Csv.Writer
import Purse.Decimal.Text
import Purse.Replay.Run

/-!
# The report of a replay

After a replay the wallets that it made are listed as comma-separated values: the label, the owner and
the balance of each, by ascending label. The output may take a limited number of bytes only.
-/

namespace Purse.Replay

/-- The names of the report's columns. -/
def reportHeader : List String := ["wallet", "user", "balance"]

/-- The labels in ascending order, with the ids and the owners of their wallets. -/
def Labels.sorted (labels : Labels) : List (String × String × String) :=
  labels.entries.mergeSort fun a b => decide (a.1 ≤ b.1)

/-- The line of a label, where its wallet is stored. -/
def reportRow? (store : Store) : String × String × String → Option (List String)
  | (label, id, user) => do
    let wallet ← (WalletId.parseTrimmed? id).bind store.wallet?
    return [label, user, wallet.balance.text]

/-- The lines of a report. -/
def State.report (s : State) : List (List String) :=
  reportHeader :: (Labels.sorted s.labels).filterMap (reportRow? s.schedule.ledger.store)

/-- The text of a report. -/
def State.output (s : State) : String := Csv.write s.report

/-- What writing an output comes to, where it may take no more bytes than a limit. -/
def written (limit : Option Nat) (output : String) : Result String :=
  if limit.any (· < output.utf8ByteSize) then
    .error (.internal "writing output: sink full")
  else .ok output

end Purse.Replay
