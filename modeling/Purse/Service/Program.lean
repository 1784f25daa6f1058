import Purse.Wallet

/-!
# Programs of calls

What a service does is a `Program`: a tree of calls on its collaborators (the wallet store with its
transactions, the key store, the mint and the clock), each followed by what happens at each answer
that the collaborator may give. A program says nothing about what the collaborators do, and so fits
a store in memory as well as a database. An answer that is an error ends the program with that error,
unless the program looks at it through `attempt`.
-/

namespace Purse

/-- A call on a collaborator. A program has at most one transaction at a time, which the calls that
need one refer to. -/
inductive Call where
  /-- Opens a transaction. -/
  | begin
  /-- Publishes the transaction's changes and ends it. -/
  | commit
  /-- Drops the transaction's changes and ends it. -/
  | rollback
  /-- Reads a wallet of a user within the transaction and locks its row until the end. -/
  | lock (wallet : WalletId) (user : UserId)
  /-- Adds to a balance within the transaction. -/
  | addWithin (wallet : WalletId) (amount : Decimal)
  /-- Adds to a balance at once. -/
  | add (wallet : WalletId) (amount : Decimal)
  /-- Stores a new wallet. -/
  | insert (wallet : Wallet)
  /-- Reads a wallet. -/
  | get (wallet : WalletId)
  /-- Reads the live wallets of a user, by ascending id. -/
  | list (user : UserId)
  /-- Asks whether a key is in use, and takes it into use if it is not. -/
  | claim (key : String)
  /-- Takes a key out of use. -/
  | release (key : String)
  /-- Makes a new wallet id. -/
  | newId
  /-- Reads the wall clock. -/
  | readClock
  deriving DecidableEq, Repr

/-- What a call is answered with when it succeeds. -/
def Call.Answer : Call → Type
  | begin | commit | rollback | addWithin _ _ | add _ _ | insert _ | release _ => Unit
  | lock _ _ | get _ => Option Wallet
  | list _ => List Wallet
  | claim _ => Bool
  | newId => WalletId
  | readClock => Timestamp

/-- A sequence of calls, each chosen by the answers to those before, that ends in a result. -/
inductive Program (α : Type) where
  /-- The program is over. -/
  | done (result : Result α)
  /-- The program makes a call and goes on with its answer. -/
  | call (c : Call) (next : Result c.Answer → Program α)

namespace Program

variable {α β : Type}

/-- One program and then another, which an error of the first one skips. -/
def bind : Program α → (α → Program β) → Program β
  | done (.ok a), f => f a
  | done (.error e), _ => done (.error e)
  | call c next, f => call c fun answer => (next answer).bind f

instance : Monad Program where
  pure a := done (.ok a)
  bind := bind

/-- The program that makes one call. -/
def ask (c : Call) : Program c.Answer := call c done

/-- The program that fails. -/
def fail (e : LedgerError) : Program α := done (.error e)

/-- What is there, or a failure. -/
def need (e : LedgerError) : Option α → Program α
  | some a => done (.ok a)
  | none => fail e

/-- The program with its error, if it ends in one, made part of its result. -/
def attempt : Program α → Program (Result α)
  | done r => done (.ok r)
  | call c next => call c fun answer => (next answer).attempt

end Program

/-- Collaborators that answer every call at once, with a state of their own. -/
abbrev Collaborators (σ : Type) := (c : Call) → σ → Result c.Answer × σ

/-- Runs a program to its end over collaborators. -/
def Program.run {α σ : Type} (answer : Collaborators σ) : Program α → σ → Result α × σ
  | done r, s => (r, s)
  | call c next, s => (next (answer c s).1).run answer (answer c s).2

end Purse
