import Purse.Remote.Statement
import Purse.Service.Program

/-!
# The wallet store in a database

Each call on the wallet store is one statement, and the answer of the database is read as the answer of
the call. `overDatabase` turns a database, given as a function from statements to answers, into
collaborators: calls that are none of the database's go on to others.
-/

namespace Purse.Remote

/-- A database, as a function of the statements sent to it. -/
abbrev Database (σ : Type) := (s : Statement) → σ → Except DatabaseFault s.Answer × σ

/-- What is sent for a call, and how the answer is read. -/
structure Inquiry (α : Type) where
  statement : Statement
  read : statement.Answer → Result α

/-- An update has to change a row: it changes none where the wallet is missing or deleted. -/
def requireRow (changed : Nat) : Result Unit :=
  if changed = 0 then .error .emptyWallet else .ok ()

/-- The first row found, as a wallet. -/
def firstWallet : List Record → Result (Option Wallet)
  | [] => .ok none
  | r :: _ => some <$> r.toWallet

/-- Every row found, as wallets. -/
def allWallets (rs : List Record) : Result (List Wallet) := rs.mapM Record.toWallet

/-- The inquiry of a call; calls on the keys, on the mint and on the clock have none. -/
def inquiry? : (c : Call) → Option (Inquiry c.Answer)
  | .begin => some ⟨.begin, .ok⟩
  | .commit => some ⟨.commit, .ok⟩
  | .rollback => some ⟨.rollback, .ok⟩
  | .lock wallet user => some ⟨.lock wallet user, firstWallet⟩
  | .addWithin wallet amount => some ⟨.add wallet amount, requireRow⟩
  | .add wallet amount => some ⟨.add wallet amount, requireRow⟩
  | .insert w => some ⟨.insert w, fun _ => .ok ()⟩
  | .get wallet => some ⟨.get wallet, firstWallet⟩
  | .list user => some ⟨.list user, allWallets⟩
  | .claim _ | .release _ | .newId | .readClock => none

/-- What the database's answer comes to. -/
def Inquiry.result {α : Type} (i : Inquiry α) : Except DatabaseFault i.statement.Answer → Result α
  | .ok answer => i.read answer
  | .error fault => .error fault.toError

/-- Collaborators of which a database is the wallet store. -/
def overDatabase {σ : Type} (database : Database σ) (others : Collaborators σ) : Collaborators σ :=
  fun c s =>
    match inquiry? c with
    | some i => ((i.result (database i.statement s).1), (database i.statement s).2)
    | none => others c s

end Purse.Remote
