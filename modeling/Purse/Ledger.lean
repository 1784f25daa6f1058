import Purse.Id.Mint
import Purse.Keys
import Purse.Service.Program
import Purse.Store

/-!
# The ledger in memory

The state that programs run over: the wallet store, the keys in use, the mint, the clock. `perform`
answers one call, `resume` goes on with a call that has waited for a row, `drive` runs a program until
it is over or waits. Calls on the store and on the keys are entered in a journal, and a call can be
made to fail beforehand: it then does nothing but report the failure.
-/

namespace Purse

/-- What the ledger gets from outside: the wall clock and the random bits at each reading. -/
structure Surroundings where
  wall : Nat → Timestamp
  random : Nat → Nat

/-- The calls that are entered in the journal, by name. -/
inductive Method where
  | begin | commit | rollback | insert | add | lock | addWithin | get | list | claim | release
  deriving DecidableEq, Repr

/-- The name of a call; the mint and the clock are not called by name. -/
def Call.method? : Call → Option Method
  | .begin => some .begin
  | .commit => some .commit
  | .rollback => some .rollback
  | .lock _ _ => some .lock
  | .addWithin _ _ => some .addWithin
  | .add _ _ => some .add
  | .insert _ => some .insert
  | .get _ => some .get
  | .list _ => some .list
  | .claim _ => some .claim
  | .release _ => some .release
  | .newId | .readClock => none

/-- A call in the journal, with the rows that the caller's transaction had locked. -/
structure JournalEntry where
  call : Call
  locked : List WalletId
  deriving DecidableEq, Repr

/-- The state of a ledger in memory. -/
structure Ledger where
  store : Store
  keys : Keys
  mint : Mint
  /-- The clock that deadlines and claims go by. -/
  now : Instant
  /-- How often the wall clock has been read. -/
  readings : Nat
  /-- The reasons for which the next call of each name is made to fail. -/
  failing : Table Method String
  /-- The calls made so far, latest last. -/
  journal : List JournalEntry

/-- What becomes of a call. -/
inductive Outcome (c : Call) where
  /-- The call is answered. The agents that it gave a lock to come with it, oldest first. -/
  | replied (answer : Result c.Answer) (ledger : Ledger) (woken : List Agent)
  /-- The call waits for the lock of a row. -/
  | waiting (row : WalletId) (ledger : Ledger)
  /-- The call ran into an arithmetic limit. -/
  | faulted (fault : Fault) (ledger : Ledger)

namespace Ledger

/-- A ledger without wallets or keys. -/
def empty (lifetime : Nat) : Ledger where
  store := Store.empty
  keys := Keys.empty lifetime
  mint := Mint.fresh
  now := 0
  readings := 0
  failing := Table.empty
  journal := []

/-- The wall-clock time of the next reading. -/
def wallTime (env : Surroundings) (l : Ledger) : Timestamp := env.wall l.readings

/-- Counts a reading of the wall clock. -/
def read (l : Ledger) : Ledger := { l with readings := l.readings + 1 }

/-- The outcome of a call by what became of it in the store. -/
def ofStep (l : Ledger) {c : Call} : Store.Step c.Answer → Outcome c
  | .replied answer store woken => .replied answer { l with store } woken
  | .waiting row store => .waiting row { l with store }

/-- The outcome of a call that ends the caller's transaction. -/
def ending (l : Ledger) {c : Call} (answer : Result c.Answer) (closed : Store × List Agent) :
    Outcome c :=
  .replied answer { l with store := closed.1 } closed.2

/-- Enters a call in the journal. -/
def record (l : Ledger) (a : Agent) (c : Call) : Ledger :=
  match c.method? with
  | some _ => { l with journal := l.journal ++ [⟨c, l.store.locked a⟩] }
  | none => l

/-- Answers a call that is made to fail. A commit or a roll-back ends the transaction all the same,
with nothing published. -/
def refuse (l : Ledger) (a : Agent) (c : Call) (reason : String) : Outcome c :=
  match c with
  | .commit | .rollback => l.ending (.error (.internal reason)) (l.store.drop a)
  | _ => .replied (.error (.internal reason)) l []

/-- Answers a call in earnest. -/
def execute (env : Surroundings) (l : Ledger) (a : Agent) : (c : Call) → Outcome c
  | .begin => .replied (.ok ()) { l with store := l.store.begin a } []
  | .commit => l.ending (.ok ()) (l.store.commit a)
  | .rollback => l.ending (.ok ()) (l.store.drop a)
  | .lock id user => l.ofStep (l.store.lock a id user)
  | .addWithin id amount => l.read.ofStep (l.store.addWithin a id amount (l.wallTime env))
  | .add id amount => l.read.ofStep (l.store.add a id amount (l.wallTime env))
  | .insert w =>
    match l.store.insert w with
    | .ok store => .replied (.ok ()) { l with store } []
    | .error e => .replied (.error e) l []
  | .get id => .replied (.ok (l.store.wallet? id)) l []
  | .list user => .replied (.ok (l.store.walletsOf user)) l []
  | .claim key =>
    match l.keys.claim l.now key with
    | .ok (inUse, keys) => .replied (.ok inUse) { l with keys } []
    | .error fault => .faulted fault l
  | .release key => .replied (.ok ()) { l with keys := l.keys.release key } []
  | .newId =>
    match l.mint.next? (l.wallTime env).toMillis.toNat (env.random l.readings) with
    | some (id, mint) => .replied (.ok id) { l.read with mint } []
    | none => .replied (.error (.internal "Ulid random bits would overflow")) l.read []
  | .readClock => .replied (.ok (l.wallTime env)) l.read []

/-- Answers a call: it is entered in the journal, and made to fail if that has been arranged. -/
def perform (env : Surroundings) (l : Ledger) (a : Agent) (c : Call) : Outcome c :=
  let l := l.record a c
  match c.method? with
  | none => l.execute env a c
  | some m =>
    match l.failing.get? m with
    | some reason => refuse { l with failing := l.failing.erase m } a c reason
    | none => l.execute env a c

/-- Goes on with a call whose agent has been given the lock it waited for. -/
def resume (env : Surroundings) (l : Ledger) (a : Agent) (c : Call) : Outcome c :=
  match c with
  | .lock id user => l.ofStep (l.store.lockGranted a id user)
  | .addWithin id amount => l.read.ofStep (l.store.addWithinGranted a id amount (l.wallTime env))
  | .add id amount => l.read.ofStep (l.store.addGranted id amount (l.wallTime env))
  | c => l.execute env a c

/-- Ends an agent's part in the ledger at any point: it gives up the row it waits for, if any, and its
transaction is dropped. -/
def abandon (l : Ledger) (a : Agent) (row : Option WalletId) : Ledger × List Agent :=
  let (store, woken) := match row with
    | some id => l.store.withdraw a id
    | none => (l.store, [])
  let (store, others) := store.drop a
  ({ l with store }, woken ++ others)

end Ledger

/-- How far a program got. -/
inductive Progress (α : Type) where
  /-- The program is over. -/
  | ended (result : Result α) (ledger : Ledger) (woken : List Agent)
  /-- The program waits for the lock of a row, to go on with the answer to a call. -/
  | waiting (c : Call) (next : Result c.Answer → Program α) (row : WalletId) (ledger : Ledger)
      (woken : List Agent)
  /-- The program ran into an arithmetic limit. -/
  | faulted (fault : Fault) (ledger : Ledger) (woken : List Agent)

namespace Ledger

variable {α : Type}

/-- Runs a program until it is over or waits. The agents given a lock meanwhile are added to those
given, in order. -/
def drive (env : Surroundings) (a : Agent) : Program α → Ledger → List Agent → Progress α
  | .done result, l, woken => .ended result l woken
  | .call c next, l, woken =>
    match l.perform env a c with
    | .replied answer l others => drive env a (next answer) l (woken ++ others)
    | .waiting row l => .waiting c next row l woken
    | .faulted fault l => .faulted fault l woken

/-- Runs a program on whose call has waited for a row, and has been given it. -/
def driveOn (env : Surroundings) (a : Agent) (c : Call) (next : Result c.Answer → Program α)
    (l : Ledger) : Progress α :=
  match l.resume env a c with
  | .replied answer l woken => drive env a (next answer) l woken
  | .waiting row l => .waiting c next row l []
  | .faulted fault l => .faulted fault l []

end Ledger

end Purse
