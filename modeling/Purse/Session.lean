import Purse.Schedule

/-!
# Sessions

A ledger used step by step: commands in the foreground and in the background, the store and the keys
by hand, transactions under names of their own, failures arranged beforehand, the clock moved on. Each
step gives a report: its answer, the background commands that ended, the calls that were made, and the
wallets as they are then. What is done by hand is not entered in the journal, and does not wait: where it
would have to, it is given up with nothing done.
-/

namespace Purse

/-- A step of a session. -/
inductive SessionStep where
  /-- A command under the session's time limit. -/
  | command (c : Command)
  /-- Makes a wallet, without a time limit. -/
  | create (request : Option NewWallet)
  /-- Tops up, without a time limit. -/
  | topup (request : Option Topup)
  /-- Transfers, without a time limit. -/
  | transfer (request : Option Transfer)
  /-- Starts a command in the background. -/
  | spawn (task : String) (c : Command)
  /-- Moves the clock on. -/
  | advance (ms : Nat)
  | insert (w : Wallet)
  | add (wallet : WalletId) (amount : Decimal)
  | get (wallet : WalletId)
  | list (user : UserId)
  /-- How many wallets there are. -/
  | size
  /-- The sum of all balances. -/
  | total
  /-- Makes the next update of a wallet within a transaction fail. -/
  | failUpdates (wallet : WalletId)
  /-- Opens a transaction; one that is open under the name is dropped. -/
  | begin (name : String)
  | lock (name : String) (wallet : WalletId) (user : UserId)
  | addWithin (name : String) (wallet : WalletId) (amount : Decimal)
  /-- The rows that a transaction has locked. -/
  | lockOrder (name : String)
  | commit (name : String)
  | rollback (name : String)
  | drop (name : String)
  /-- Ends a transaction by an outcome: with an error, or without. -/
  | finish (name : String) (outcome : Result Unit)
  | claim (key : String)
  | release (key : String)
  | purge
  /-- How many claims are on record. -/
  | keysSize
  /-- Makes the next call of a name fail. -/
  | fail (method : Method) (reason : String)

/-- The answer to a step. -/
inductive Answer where
  | unit
  | wallet (w : Wallet)
  | found (w : Option Wallet)
  | listed (ws : List Wallet)
  | ids (ids : List WalletId)
  | total (d : Decimal)
  | flag (b : Bool)
  | count (n : Nat)
  /-- How many things there are. -/
  | size (n : Nat)
  | error (e : LedgerError)
  | fault (f : Fault)
  /-- No transaction is open under the name. -/
  | noTransaction
  /-- The step would have had to wait. -/
  | blocked
  deriving Repr

namespace Answer

/-- The answer that a command's reply is. -/
def ofReply : Reply → Answer
  | .unit => unit
  | .wallet w => wallet w
  | .found w => found w
  | .listed ws => listed ws

/-- The answer that a command's ending is. -/
def ofEnding : Ending → Answer
  | .result (.ok r) => ofReply r
  | .result (.error e) => error e
  | .fault f => fault f

/-- The answer to a call by hand, and the ledger after it. -/
def ofCall (c : Call) (r : Result c.Answer) : Answer :=
  match r with
  | .error e => error e
  | .ok a =>
    match c, a with
    | .lock _ _, a | .get _, a => found a
    | .list _, a => listed a
    | .claim _, a => flag a
    | _, _ => unit

end Answer

/-- What came of a step. -/
structure Report where
  answer : Answer
  /-- The background commands that ended, by the names of their tasks. -/
  ended : List (String × Ending)
  /-- The calls that were made. -/
  calls : List JournalEntry
  /-- Every committed wallet. -/
  wallets : List Wallet

/-- A ledger with the names in use. -/
structure Session where
  schedule : Schedule
  /-- How long a command may wait, in milliseconds. -/
  timeout : Nat
  /-- The open transactions, by name. -/
  transactions : Table String Agent
  /-- The background commands, by agent, in the order in which they were started. -/
  tasks : Table Agent String

namespace Session

/-- A session with an empty ledger. -/
def empty (lifetime timeout : Nat) : Session :=
  ⟨Schedule.empty lifetime, timeout, Table.empty, Table.empty⟩

/-- The background commands that are not over, in the order in which they were started. -/
def pending (s : Session) : List String :=
  (s.tasks.entries.filter fun t => s.schedule.waiters.any (·.agent = t.1)).map Prod.snd

/-- An agent that nobody else is. -/
def newAgent (s : Session) : Agent × Session :=
  let a := s.schedule.nextAgent
  (a, { s with schedule := { s.schedule with nextAgent := a + 1 } })

/-- Makes a call by hand, if it need not wait. -/
def byHand (env : Surroundings) (s : Session) (a : Agent) (c : Call) : Session × Answer :=
  match s.schedule.ledger.execute env a c with
  | .replied r ledger woken => ({ s with schedule := s.schedule.wake ledger woken }, .ofCall c r)
  | .waiting _ _ => (s, .blocked)
  | .faulted f ledger => ({ s with schedule := { s.schedule with ledger } }, .fault f)

/-- Makes a call by hand for an open transaction. -/
def within (env : Surroundings) (s : Session) (name : String) (c : Call) : Session × Answer :=
  match s.transactions.get? name with
  | some a => s.byHand env a c
  | none => (s, .noTransaction)

/-- Forgets the name of a transaction that is over. -/
def closed (name : String) : Session × Answer → Session × Answer
  | (s, answer) => ({ s with transactions := s.transactions.erase name }, answer)

/-- Drops the transaction open under a name, if there is one. -/
def dropNamed (s : Session) (name : String) : Session :=
  match s.transactions.get? name with
  | some a =>
    { s with
      schedule := s.schedule.abandon a none, transactions := s.transactions.erase name }
  | none => s

/-- Runs a program in the foreground. -/
def foreground (env : Surroundings) (s : Session) (program : Program Reply)
    (deadline : Option Instant) : Session × Answer × List (Agent × Ending) :=
  let (schedule, ending, ended) := s.schedule.execute env program deadline
  ({ s with schedule }, .ofEnding ending, ended)

/-- The instant at which a command that starts now is cancelled. -/
def deadline (s : Session) : Instant := s.schedule.ledger.now + s.timeout

/-- Changes the wallet store by hand. -/
def modifyStore (s : Session) (f : Store → Store) : Session :=
  { s with schedule.ledger.store := f s.schedule.ledger.store }

/-- Changes the keys by hand. -/
def setKeys (s : Session) (keys : Keys) : Session :=
  { s with schedule.ledger.keys := keys }

/-- Ends a named transaction by an outcome, through the journal. -/
def finishNamed (env : Surroundings) (s : Session) (name : String) (outcome : Result Unit) :
    Session × Answer :=
  match s.transactions.get? name with
  | none => (s, .noTransaction)
  | some a =>
    let s := { s with transactions := s.transactions.erase name }
    match s.schedule.ledger.drive env a (finish outcome) [] with
    | .ended (.ok ()) ledger woken => ({ s with schedule := s.schedule.wake ledger woken }, .unit)
    | .ended (.error e) ledger woken =>
      ({ s with schedule := s.schedule.wake ledger woken }, .error e)
    | .waiting _ _ _ _ _ => (s, .blocked)
    | .faulted f ledger woken => ({ s with schedule := s.schedule.wake ledger woken }, .fault f)

/-- Does a step, up to the background commands that it lets go on. -/
def act (env : Surroundings) (s : Session) : SessionStep → Session × Answer × List (Agent × Ending)
  | .command c => s.foreground env c.program (some s.deadline)
  | .create request => s.foreground env (creation request) none
  | .topup request => s.foreground env (toppingUp request) none
  | .transfer request => s.foreground env (transferring request) none
  | .spawn task c =>
    let (schedule, a, ending?) := s.schedule.spawn env c.program s.deadline
    ({ s with schedule, tasks := s.tasks.put a task }, .unit, ending?.toList.map (a, ·))
  | .advance ms =>
    ({ s with schedule := s.schedule.moveClock (s.schedule.ledger.now + ms) }, .unit, [])
  | .insert w => still (s.byHand env s.schedule.nextAgent (.insert w))
  | .add wallet amount =>
    let (a, s) := s.newAgent
    still (s.byHand env a (.add wallet amount))
  | .get wallet => still (s.byHand env s.schedule.nextAgent (.get wallet))
  | .list user => still (s.byHand env s.schedule.nextAgent (.list user))
  | .size => still (s, .size s.schedule.ledger.store.size)
  | .total =>
    match s.schedule.ledger.store.total? with
    | some d => still (s, .total d)
    | none => still (s, .fault .totalOverflow)
  | .failUpdates wallet => still (s.modifyStore (·.arm wallet), .unit)
  | .begin name =>
    let (a, s) := (s.dropNamed name).newAgent
    still ({ s.modifyStore (·.begin a) with transactions := s.transactions.put name a }, .unit)
  | .lock name wallet user => still (s.within env name (.lock wallet user))
  | .addWithin name wallet amount => still (s.within env name (.addWithin wallet amount))
  | .lockOrder name =>
    match s.transactions.get? name with
    | some a => still (s, .ids (s.schedule.ledger.store.locked a))
    | none => still (s, .noTransaction)
  | .commit name => still (closed name (s.within env name .commit))
  | .rollback name => still (closed name (s.within env name .rollback))
  | .drop name =>
    if s.transactions.contains name then still (s.dropNamed name, .unit)
    else still (s, .noTransaction)
  | .finish name outcome => still (s.finishNamed env name outcome)
  | .claim key => still (s.byHand env s.schedule.nextAgent (.claim key))
  | .release key => still (s.byHand env s.schedule.nextAgent (.release key))
  | .purge =>
    let (n, keys) := s.schedule.ledger.keys.purge s.schedule.ledger.now
    still (s.setKeys keys, .count n)
  | .keysSize => still (s, .size s.schedule.ledger.keys.size)
  | .fail method reason =>
    still ({ s with
      schedule.ledger.failing := s.schedule.ledger.failing.put method reason }, .unit)
where
  /-- A step that ends no background command by itself. -/
  still : Session × Answer → Session × Answer × List (Agent × Ending)
    | (s, answer) => (s, answer, [])

/-- Does a step and lets the background commands go on, then reports. -/
def step (env : Surroundings) (s : Session) (x : SessionStep) : Session × Report :=
  let (s, answer, first) := s.act env x
  let (schedule, later) := s.schedule.settle env
  let calls := schedule.ledger.journal
  let ended := (first ++ later).filterMap fun e => (s.tasks.get? e.1).map (·, e.2)
  ({ s with schedule := { schedule with ledger.journal := [] } },
    ⟨answer, ended, calls, schedule.ledger.store.wallets⟩)

end Session

end Purse
