import Purse.Replay.Row
import Purse.Schedule

/-!
# Replaying rows

The rows of a file are applied to a ledger one after the other. A wallet that a row makes goes by the
label the row gives it, and later rows name wallets by their labels or by their ids; a label goes
before an id. Malformed rows and rejected commands are skipped, with a note of each.
-/

namespace Purse.Replay

/-- A row that was skipped, by its place in the file. -/
inductive Skip where
  | malformed (line : Nat)
  | rejected (line : Nat) (command : String) (error : LedgerError)
  deriving DecidableEq, Repr

/-- The wallets made so far, by their labels: the texts of their ids and of their owners. -/
abbrev Labels := Table String (String × String)

/-- How far a replay got. -/
structure State where
  schedule : Schedule
  labels : Labels
  /-- The rows skipped so far, in order. -/
  skipped : List Skip
  /-- The arithmetic limit that ended the replay before its time. -/
  fault : Option Fault

namespace State

/-- A replay over a ledger, before its first row. -/
def start (schedule : Schedule) : State := ⟨schedule, Table.empty, [], none⟩

/-- The wallet id that a wallet field stands for: the one that goes by the label, or the text itself. -/
def resolve (s : State) (field : String) : String :=
  match s.labels.get? field with
  | some (id, _) => id
  | none => field

/-- The command of a row. -/
def command (s : State) (row : Row) : Result Command :=
  match (row.command.map Char.toLower), row.amount with
  | "create", _ => .ok (.createWallet row.user)
  | "topup", some amount => .ok (.topup ⟨s.resolve row.wallet, row.user, amount, row.key⟩)
  | "topup", none => .error .invalidAmount
  | "transfer", some amount =>
    .ok (.transfer ⟨row.user, s.resolve row.wallet, row.toUser, s.resolve row.toWallet, amount⟩)
  | "transfer", none => .error .invalidAmount
  | _, _ => .error .invalidTransfer

/-- Notes a row that was skipped. -/
def skip (s : State) (why : Skip) : State := { s with skipped := s.skipped ++ [why] }

/-- Notes the label of a wallet that was made. -/
def label (s : State) (row : Row) : Reply → State
  | .wallet w => { s with labels := s.labels.put row.wallet (w.id.text, w.userId.text) }
  | _ => s

/-- Applies a row. -/
def apply (env : Surroundings) (timeout : Nat) (s : State) (line : Nat) (row : Row) : State :=
  match s.command row with
  | .error e => s.skip (.rejected line row.command e)
  | .ok c =>
    let deadline := s.schedule.ledger.now + timeout
    let (schedule, ending, _) := s.schedule.execute env c.program (some deadline)
    let s := { s with schedule }
    match ending with
    | .result (.ok reply) => s.label row reply
    | .result (.error e) => s.skip (.rejected line row.command e)
    | .fault f => { s with fault := some f }

/-- Goes through the row at a line. Nothing is done any more once a fault has ended the replay. -/
def next (env : Surroundings) (timeout : Nat) (s : State) (line : Nat) (row? : Option Row) : State :=
  if s.fault.isSome then s
  else match row? with
    | none => s.skip (.malformed line)
    | some row => s.apply env timeout line row

/-- Goes through rows, of which the first is at a given line. -/
def runFrom (env : Surroundings) (timeout : Nat) : State → Nat → List (Option Row) → State
  | s, _, [] => s
  | s, line, row? :: rest => runFrom env timeout (s.next env timeout line row?) (line + 1) rest

end State

/-- Replays a file over a ledger. -/
def run (env : Surroundings) (timeout : Nat) (schedule : Schedule) (bytes : List UInt8) : State :=
  (State.start schedule).runFrom env timeout 0 (rows bytes)

end Purse.Replay
