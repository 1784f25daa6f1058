import Purse.Keys
import Purse.Remote.WalletTable
import Purse.Schedule

/-!
# A ledger over a database

A ledger whose wallets are in a database of its own, one connection at a time; its keys are kept beside,
in memory. Ids come from a mint whose answers are given beforehand. Every statement is answered, so that
a program always runs to its end.
-/

namespace Purse.Remote

/-- A ledger over a database. -/
structure Branch where
  table : WalletTable
  keys : Keys
  /-- The clock that claims go by. -/
  now : Instant
  /-- The wall clock by which wallets are made. -/
  wall : Timestamp
  /-- What the mint answers next. -/
  minted : List (Result WalletId)

namespace Branch

/-- A ledger over a database without rows. -/
def empty (lifetime : Nat) (minted : List (Result WalletId)) : Branch where
  table := WalletTable.empty Timestamp.epoch
  keys := Keys.empty lifetime
  now := 0
  wall := Timestamp.epoch
  minted := minted

/-- What answers the calls that are none of the database's, of a program without them: nothing. -/
def nobody {σ : Type} : Collaborators σ := fun _ s => (.error (.internal "nobody answers"), s)

/-- Answers a call, unless it runs into an arithmetic limit. -/
def serve (b : Branch) : (c : Call) → Except Fault (Result c.Answer × Branch)
  | .claim key =>
    match b.keys.claim b.now key with
    | .ok (inUse, keys) => .ok (.ok inUse, { b with keys })
    | .error fault => .error fault
  | .release key => .ok (.ok (), { b with keys := b.keys.release key })
  | .newId =>
    match b.minted with
    | [] => .ok (.error (.internal "nothing minted"), b)
    | id :: minted => .ok (id, { b with minted })
  | .readClock => .ok (.ok b.wall, b)
  | c =>
    let (answer, table) := overDatabase WalletTable.answer nobody c b.table
    .ok (answer, { b with table })

/-- Runs a program to its end. -/
def run : Program Reply → Branch → Ending × Branch
  | .done r, b => (.result r, b)
  | .call c next, b =>
    match b.serve c with
    | .ok (answer, b) => run (next answer) b
    | .error fault => (.fault fault, b)

end Branch

end Purse.Remote
