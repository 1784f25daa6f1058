import Mathlib.Logic.Function.Basic
import Purse.Schedule
import Purse.Proofs.Store.Coherence

/-!
# Crowds

Any number of agents at work over one ledger, in any order. A schedule lets a command run until it
waits; here every call on the ledger is a step of its own, and any agent may take the next one. An
agent that waits for a row can go on once it has been given the row, and an agent that is not done
can be dropped at any point. Besides, everything in the ledger but its rows and transactions may
change at any time: the clock moves, keys are claimed and purged, failures are arranged.

An agent runs a top-up, a transfer, or some other program. Other programs stand for whatever else is
done to the store: wallets made, rows locked by hand, transactions that never end. All that is asked
of them is what a transaction handle enforces, that there is one transaction at a time (`Orderly`).

## Definitions

* `Program.Orderly`: a program uses its calls on transactions in a possible order.
* `Job`, `Thread`, `Crowd`: what an agent sets out to do, how far it got, and all agents together.
* `Crowd.turn?`: an agent's next call; `Crowd.dropped`: the crowd after an agent was dropped.
* `Crowd.Step`, `Crowd.Run`: one step of anybody, and any number of steps with their events.

## Results

* `Crowd.turn?_eq_some`: what a turn is.
* `Store.resting_ofWallets`: nobody is at work in the store of some wallets.
-/

namespace Purse

-- ---------------------------------------------------------------------------
-- Programs with one transaction at a time
-- ---------------------------------------------------------------------------

namespace Call

/-- The row whose lock a call asks for. -/
def row? : Call → Option WalletId
  | .lock id _ | .addWithin id _ | .add id _ => some id
  | _ => none

/-- Whether a call changes committed wallets when it succeeds. -/
def publishes : Call → Bool
  | .commit | .add _ _ | .insert _ => true
  | _ => false

/-- Whether a call can be made, by whether a transaction is open. -/
def fits (isOpen : Bool) : Call → Bool
  | .begin | .add _ _ => !isOpen
  | .lock _ _ | .addWithin _ _ | .commit | .rollback => isOpen
  | _ => true

/-- Whether a transaction is open after a call was answered. -/
def leavesOpen (isOpen : Bool) : (c : Call) → Result c.Answer → Bool
  | .begin, .ok _ => true
  | .commit, _ | .rollback, _ => false
  | _, _ => isOpen

end Call

/-- A program that makes each call when it can be made, and ends with no transaction open. -/
def Program.Orderly {α : Type} : Bool → Program α → Prop
  | isOpen, .done _ => isOpen = false
  | isOpen, .call c next =>
    c.fits isOpen = true ∧ ∀ answer, (next answer).Orderly (c.leavesOpen isOpen answer)

-- ---------------------------------------------------------------------------
-- Agents
-- ---------------------------------------------------------------------------

/-- What an agent sets out to do. -/
inductive Job where
  | topup (request : Option Topup)
  | transfer (request : Option Transfer)
  /-- Anything else, such as a transaction opened by hand. -/
  | other (program : Program Reply) (orderly : program.Orderly false)

/-- The program of a job. -/
def Job.program : Job → Program Reply
  | topup request => toppingUp request
  | transfer request => transferring request
  | other program _ => program

/-- Whether a job is a command that moves money: a top-up or a transfer. -/
def Job.isCommand : Job → Bool
  | topup _ | transfer _ => true
  | other _ _ => false

/-- How far an agent got. -/
inductive Thread where
  /-- It makes a call next. -/
  | calling (c : Call) (next : Result c.Answer → Program Reply)
  /-- It waits for a row, to go on with the answer to a call. -/
  | waiting (c : Call) (next : Result c.Answer → Program Reply) (row : WalletId)
  /-- It is done. -/
  | ended (ending : Ending)

namespace Thread

/-- An agent that has a program to run. -/
def ofProgram : Program Reply → Thread
  | .done r => .ended (.result r)
  | .call c next => .calling c next

/-- The row that an agent waits for. -/
def row? : Thread → Option WalletId
  | .waiting _ _ row => some row
  | .calling _ _ | .ended _ => none

/-- Whether an agent is done. -/
def isEnded : Thread → Bool
  | .ended _ => true
  | .calling _ _ | .waiting _ _ _ => false

end Thread

/-- A ledger with the agents at work in it. -/
structure Crowd where
  ledger : Ledger
  threads : Agent → Thread

/-- What can be seen of a step. -/
inductive Event where
  /-- An agent's call was answered. -/
  | answered (a : Agent) (c : Call) (answer : Result c.Answer)
  /-- An agent's call has to wait for a row. -/
  | queued (a : Agent) (row : WalletId)
  /-- An agent's call ran into an arithmetic limit. -/
  | faulted (a : Agent) (fault : Fault)
  /-- An agent was dropped. -/
  | dropped (a : Agent)
  /-- Something changed that is neither a row nor a transaction. -/
  | aside

namespace Event

/-- Whose step it was. -/
def agent? : Event → Option Agent
  | answered a _ _ | queued a _ | faulted a _ | dropped a => some a
  | aside => none

/-- Whether a step may have changed committed wallets. -/
def isLoud : Event → Bool
  | answered _ c (.ok _) => c.publishes
  | _ => false

/-- The agent whose changes a step made final. -/
def commits? : Event → Option Agent
  | answered a .commit (.ok _) | answered a (.add _ _) (.ok _) => some a
  | _ => none

end Event

/-- The agents that committed, in the order in which they did. -/
def commits (trace : List Event) : List Agent := trace.filterMap Event.commits?

-- ---------------------------------------------------------------------------
-- Steps
-- ---------------------------------------------------------------------------

namespace Crowd

/-- Agents with their jobs before them, over a ledger. -/
def start (jobs : Agent → Job) (l : Ledger) : Crowd := ⟨l, fun a => .ofProgram (jobs a).program⟩

/-- The row that each agent waits for. -/
def pending (s : Crowd) (a : Agent) : Option WalletId := (s.threads a).row?

/-- The crowd with an agent gone on to a thread, over another ledger. -/
def goOn (s : Crowd) (a : Agent) (l : Ledger) (t : Thread) : Crowd :=
  ⟨l, Function.update s.threads a t⟩

/-- What an agent's call comes to. A call that runs into an arithmetic limit ends the agent. -/
def after (s : Crowd) (a : Agent) {c : Call} (next : Result c.Answer → Program Reply) :
    Outcome c → Event × Crowd
  | .replied answer l _ => (.answered a c answer, s.goOn a l (.ofProgram (next answer)))
  | .waiting row l => (.queued a row, s.goOn a l (.waiting c next row))
  | .faulted f l => (.faulted a f, s.goOn a (l.abandon a none).1 (.ended (.fault f)))

/-- An agent's turn: its next call, or the rest of the call whose row it has been given. There is no
turn for an agent that still waits or is done. -/
def turn? (env : Surroundings) (s : Crowd) (a : Agent) : Option (Event × Crowd) :=
  match s.threads a with
  | .calling c next => some (s.after a next (s.ledger.perform env a c))
  | .waiting c next row =>
    if s.ledger.store.holds a row then some (s.after a next (s.ledger.resume env a c)) else none
  | .ended _ => none

/-- The crowd after an agent was dropped. -/
def dropped (s : Crowd) (a : Agent) : Crowd :=
  s.goOn a (s.ledger.abandon a (s.pending a)).1 (.ended (.result (.error .cancelled)))

/-- One step of anybody. -/
inductive Step (env : Surroundings) : Crowd → Event → Crowd → Prop where
  /-- An agent takes its turn. -/
  | turn {s s' : Crowd} {e : Event} {a : Agent} (hTurn : s.turn? env a = some (e, s')) :
      Step env s e s'
  /-- An agent that is not done is dropped. -/
  | drop {s : Crowd} {a : Agent} (hBusy : (s.threads a).isEnded = false) :
      Step env s (.dropped a) (s.dropped a)
  /-- The ledger changes, but for its rows and transactions. -/
  | aside {s : Crowd} {l : Ledger} (hRows : l.store.rows = s.ledger.store.rows)
      (hTransactions : l.store.transactions = s.ledger.store.transactions) :
      Step env s .aside ⟨l, s.threads⟩

/-- Any number of steps, with their events. -/
inductive Run (env : Surroundings) (s₀ : Crowd) : List Event → Crowd → Prop where
  | nil : Run env s₀ [] s₀
  | snoc {trace : List Event} {s s' : Crowd} {e : Event} (hRun : Run env s₀ trace s)
      (hStep : Step env s e s') : Run env s₀ (trace ++ [e]) s'

variable {env : Surroundings} {s : Crowd} {a : Agent} {c : Call}
  {next : Result c.Answer → Program Reply} {row : WalletId}

theorem turn?_of_calling (hThread : s.threads a = .calling c next) :
    s.turn? env a = some (s.after a next (s.ledger.perform env a c)) := by
  unfold turn?
  rw [hThread]

theorem turn?_of_waiting (hThread : s.threads a = .waiting c next row)
    (hHolds : s.ledger.store.holds a row = true) :
    s.turn? env a = some (s.after a next (s.ledger.resume env a c)) := by
  unfold turn?
  rw [hThread]
  exact if_pos hHolds

theorem turn?_of_isEnded (hEnded : (s.threads a).isEnded = true) : s.turn? env a = none := by
  unfold turn?
  cases hThread : s.threads a with
  | ended ending => rfl
  | calling c next => simp [hThread, Thread.isEnded] at hEnded
  | waiting c next row => simp [hThread, Thread.isEnded] at hEnded

/-- A turn is a call that is made, or the rest of one by an agent that has been given its row. -/
theorem turn?_eq_some {turn : Event × Crowd} (hTurn : s.turn? env a = some turn) :
    ∃ (c : Call) (next : Result c.Answer → Program Reply),
      (s.threads a = .calling c next ∧ turn = s.after a next (s.ledger.perform env a c)) ∨
      ∃ row, s.threads a = .waiting c next row ∧ s.ledger.store.holds a row = true ∧
        turn = s.after a next (s.ledger.resume env a c) := by
  cases hThread : s.threads a with
  | calling c next =>
    rw [turn?_of_calling hThread] at hTurn
    exact ⟨c, next, Or.inl ⟨rfl, (Option.some.inj hTurn).symm⟩⟩
  | waiting c next row =>
    unfold turn? at hTurn
    rw [hThread] at hTurn
    simp only at hTurn
    split at hTurn
    · next hHolds => exact ⟨c, next, Or.inr ⟨row, rfl, hHolds, (Option.some.inj hTurn).symm⟩⟩
    · simp at hTurn
  | ended ending =>
    rw [turn?_of_isEnded (by rw [hThread]; rfl)] at hTurn
    simp at hTurn

end Crowd

-- ---------------------------------------------------------------------------
-- Where a crowd starts
-- ---------------------------------------------------------------------------

namespace Store

/-- A store in which nobody is at work: wallets under their ids, rows free, no transaction. -/
structure Resting (s : Store) : Prop where
  free : ∀ {id row}, s.rows.get? id = some row → row = Row.free row.committed
  keyed : ∀ {id w}, s.wallet? id = some w → w.id = id
  idle : ∀ a, s.copies a = []

theorem resting_empty : empty.Resting := by
  refine ⟨?_, ?_, fun _ => rfl⟩
  · intro id row hRow
    simp [empty] at hRow
  · intro id w hWallet
    simp [wallet?, empty] at hWallet

theorem Resting.insert {s s' : Store} {w : Wallet} (hResting : s.Resting)
    (hInsert : s.insert w = .ok s') : s'.Resting := by
  obtain ⟨-, hGet, hTransactions⟩ := insert_eq_ok hInsert
  refine ⟨?_, keyed_insert hInsert hResting.keyed,
    fun a => (copies_congr hTransactions a).trans (hResting.idle a)⟩
  intro x row hRow
  rw [hGet] at hRow
  split at hRow
  · obtain rfl : Row.free w = row := by simpa using hRow
    rfl
  · exact hResting.free hRow

/-- The store of some wallets. Of two wallets with one id the first one counts. -/
def ofWallets (ws : List Wallet) : Store :=
  ws.foldl (fun s w => (s.insert w).toOption.getD s) empty

/-- What holds of the store without wallets, and stays so when one of some wallets is stored, holds
of the store of these wallets. -/
theorem ofWallets_induction {P : Store → Prop} {ws : List Wallet} (hEmpty : P empty)
    (hInsert : ∀ w ∈ ws, ∀ s s' : Store, s.insert w = .ok s' → P s → P s') : P (ofWallets ws) := by
  have hFrom : ∀ s : Store, P s →
      P (ws.foldl (fun s w => (s.insert w).toOption.getD s) s) := by
    clear hEmpty
    induction ws with
    | nil => exact fun s hStore => hStore
    | cons w ws ih =>
      intro s hStore
      refine ih (fun v hMem => hInsert v (List.mem_cons_of_mem w hMem)) _ ?_
      show P ((s.insert w).toOption.getD s)
      cases hOutcome : s.insert w with
      | ok s' => exact hInsert w List.mem_cons_self s s' hOutcome hStore
      | error e => exact hStore
  exact hFrom empty hEmpty

theorem resting_ofWallets (ws : List Wallet) : (ofWallets ws).Resting :=
  ofWallets_induction resting_empty fun _ _ _ _ hInsert hResting => hResting.insert hInsert

/-- Nobody stands anywhere in a resting store, and nobody has a copy. -/
theorem Resting.coherent {s : Store} (hResting : s.Resting) : Coherent (fun _ => none) s := by
  have hLine : ∀ id, s.line id = [] := by
    intro id
    unfold line
    cases hRow : s.rows.get? id with
    | none => rfl
    | some row =>
      rw [hResting.free hRow]
      rfl
  have hLocked : ∀ a, s.locked a = [] := by
    intro a
    unfold locked
    rw [hResting.idle]
    rfl
  refine ⟨?_, hResting.keyed, ?_, ?_, ?_, ?_⟩
  · intro id row hRow
    rw [hResting.free hRow]
    exact Row.sound_free _
  · simp [hLine, hLocked]
  · simp [hLocked]
  · simp
  · simp [hLocked]

end Store

end Purse
