import Purse.Ledger
import Purse.Service.Command

/-!
# Commands side by side

Several commands over one ledger. A command runs until it is over or waits for a row; commands that
have been given a row go on in the order in which they were given it. A command that still waits when
its deadline comes is cancelled: it gives up its place and its transaction is dropped. A command that
has been given the row it waits for goes on first, so a deadline cuts waiting and nothing else.
-/

namespace Purse

/-- How a command ended. -/
inductive Ending where
  | result (r : Result Reply)
  | fault (f : Fault)

/-- A command that waits for a row. -/
structure Waiter where
  agent : Agent
  /-- The call that waits. -/
  call : Call
  /-- How the command goes on with the call's answer. -/
  next : Result call.Answer → Program Reply
  row : WalletId
  /-- When the command is cancelled, if ever. -/
  deadline : Option Instant

/-- Whether a waiting command's deadline has come. -/
def Waiter.isDue (w : Waiter) (now : Instant) : Bool := w.deadline.any (· ≤ now)

/-- A ledger with the commands that wait in it. -/
structure Schedule where
  ledger : Ledger
  /-- The waiting commands, in the order in which they were started. -/
  waiters : List Waiter
  /-- The agents that have been given a row or whose deadline has come, in order. -/
  ready : List Agent
  /-- The agent of the next command or transaction. -/
  nextAgent : Agent

namespace Schedule

/-- A schedule over an empty ledger. -/
def empty (lifetime : Nat) : Schedule := ⟨Ledger.empty lifetime, [], [], 0⟩

/-- Whether a waiting command has been given its row. -/
def isGranted (s : Schedule) (w : Waiter) : Bool := s.ledger.store.holds w.agent w.row

/-- Takes over a ledger and puts the agents woken on the list. One that is on the list already keeps
its place. -/
def wake (s : Schedule) (ledger : Ledger) (woken : List Agent) : Schedule :=
  { s with ledger, ready := s.ready ++ woken.filter (· ∉ s.ready) }

/-- Ends a command at any point, and drops what it holds. -/
def abandon (s : Schedule) (a : Agent) (row : Option WalletId) : Schedule :=
  let (ledger, woken) := s.ledger.abandon a row
  s.wake ledger woken

/-- What became of a command that was let run. -/
inductive Turn where
  | ended (ending : Ending) (schedule : Schedule)
  | waiting (waiter : Waiter) (schedule : Schedule)

/-- What became of a command, by how far its program got. One that waits although its deadline has
come is cancelled. -/
def turn (s : Schedule) (a : Agent) (deadline : Option Instant) : Progress Reply → Turn
  | .ended r ledger woken => .ended (.result r) (s.wake ledger woken)
  | .faulted f ledger woken => .ended (.fault f) ((s.wake ledger woken).abandon a none)
  | .waiting c next row ledger woken =>
    let waiter : Waiter := ⟨a, c, next, row, deadline⟩
    let s := s.wake ledger woken
    if waiter.isDue ledger.now then
      .ended (.result (.error .cancelled)) (s.abandon a (some row))
    else .waiting waiter s

/-- Lets a waiting command run: on, if it has been given its row; to its end, if its deadline has
come; not at all otherwise. -/
def poll (env : Surroundings) (s : Schedule) (w : Waiter) : Turn :=
  if s.isGranted w then
    s.turn w.agent w.deadline (s.ledger.driveOn env w.agent w.call w.next)
  else if w.isDue s.ledger.now then
    .ended (.result (.error .cancelled)) (s.abandon w.agent (some w.row))
  else .waiting w s

/-- The waiting commands with one of them replaced by what it waits for now, or left out. -/
def replaceWaiter (ws : List Waiter) (a : Agent) (w? : Option Waiter) : List Waiter :=
  ws.filterMap fun w => if w.agent = a then w? else some w

/-- Lets the first agent on the list run. An agent that no command waits under is passed over. -/
def serve (env : Surroundings) (s : Schedule) (a : Agent) : Schedule × List (Agent × Ending) :=
  match s.waiters.find? (·.agent = a) with
  | none => (s, [])
  | some w =>
    match s.poll env w with
    | .ended e s => ({ s with waiters := replaceWaiter s.waiters a none }, [(a, e)])
    | .waiting w s => ({ s with waiters := replaceWaiter s.waiters a (some w) }, [])

/-- Lets the agents on the list run, and those that are woken by it, for a number of turns. -/
def run (env : Surroundings) : Nat → Schedule → Schedule × List (Agent × Ending)
  | 0, s => (s, [])
  | turns + 1, s =>
    match s.ready with
    | [] => (s, [])
    | a :: rest =>
      let (s, ended) := serve env { s with ready := rest } a
      let (s, others) := run env turns s
      (s, ended ++ others)

/-- How many turns there can be before all is still. Besides those on the list, each waiting command
takes at most two turns, as no command waits more than twice. -/
def turnsLeft (s : Schedule) : Nat := s.ready.length + 2 * s.waiters.length + 1

/-- Lets commands run until each of them is over or waits. -/
def settle (env : Surroundings) (s : Schedule) : Schedule × List (Agent × Ending) :=
  run env s.turnsLeft s

/-- Starts a program as a command of its own. -/
def start (env : Surroundings) (s : Schedule) (program : Program Reply)
    (deadline : Option Instant) : Turn :=
  let a := s.nextAgent
  let s := { s with nextAgent := a + 1 }
  s.turn a deadline (s.ledger.drive env a program [])

/-- Starts a command in the background. The agent it runs under comes with the schedule, and its
ending if it is over at once. -/
def spawn (env : Surroundings) (s : Schedule) (program : Program Reply) (deadline : Instant) :
    Schedule × Agent × Option Ending :=
  match s.start env program (some deadline) with
  | .ended e s' => (s', s.nextAgent, some e)
  | .waiting w s' => ({ s' with waiters := s'.waiters ++ [w] }, s.nextAgent, none)

/-- The waiting commands whose deadline has come, by deadline. -/
def due (s : Schedule) : List Agent :=
  ((s.waiters.filter (·.isDue s.ledger.now)).mergeSort fun a b =>
    a.deadline.getD 0 ≤ b.deadline.getD 0).map Waiter.agent

/-- Moves the clock on to an instant, and puts the commands whose deadline comes on the list. -/
def moveClock (s : Schedule) (instant : Instant) : Schedule :=
  let s := { s with ledger := { s.ledger with now := max s.ledger.now instant } }
  s.wake s.ledger s.due

/-- The next deadline of a waiting command. -/
def nextDeadline? (s : Schedule) (w : Waiter) : Option Instant :=
  ((w :: s.waiters).filterMap Waiter.deadline).min?

/-- Waits for a command that nobody but the waiting ones can let go on: the clock moves from deadline
to deadline until the command is over. It is let run before those that share its deadline. -/
def await (env : Surroundings) : Nat → Schedule → Waiter → Schedule × Ending × List (Agent × Ending)
  | 0, s, w => (s.abandon w.agent (some w.row), .result (.error .cancelled), [])
  | moves + 1, s, w =>
    let (s, ended) := s.settle env
    let s := if s.isGranted w then s else
      match s.nextDeadline? w with
      | some instant => s.moveClock instant
      | none => s
    match s.poll env w with
    | .ended e s => (s, e, ended)
    | .waiting w s =>
      let (s, e, others) := await env moves s w
      (s, e, ended ++ others)

/-- Runs a program to its end as a command of its own. The endings of other commands meanwhile come
with its own. -/
def execute (env : Surroundings) (s : Schedule) (program : Program Reply)
    (deadline : Option Instant) : Schedule × Ending × List (Agent × Ending) :=
  match s.start env program deadline with
  | .ended e s => (s, e, [])
  | .waiting w s => s.await env (2 * s.waiters.length + 3) w

end Schedule

end Purse
