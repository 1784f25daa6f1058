import Purse.Proofs.Remote.Mirror

/-!
# One ledger, two backends

A sequence of commands is given to a ledger in memory and to a ledger over a database, both of them
without wallets at first. The commands end alike, and the same wallets are stored in the end, as long as
each sum of a balance and an amount fits as it is (`backends_agree`). The ids and the keys are the same
on both sides. Wall clocks are not: whatever they show, no command goes by them.

## Definitions

* `Errand`: a command, and when it is given.
* `Schedule.attendAll`, `Branch.attendAll`: a sequence of commands in memory and over a database.
* `Schedule.exchanges`: the calls of a sequence of commands in memory.

## Results

* `Mirror.attend`: what becomes of one command on both sides.
* `backends_agree`: what becomes of every sequence of commands.
-/

namespace Purse

/-- A command, and when it is given. -/
structure Errand where
  order : Order
  /-- What the clock that claims go by shows, unless it shows a later instant already. -/
  instant : Instant
  /-- When the command is cancelled if it waits, if ever. -/
  deadline : Option Instant
  /-- What the wall clock beside the database shows. -/
  wall : Timestamp
  /-- What the clock of the database shows. -/
  server : Timestamp

-- ---------------------------------------------------------------------------
-- Commands in memory
-- ---------------------------------------------------------------------------

namespace Schedule

/-- Runs a command to its end. -/
def attend (env : Surroundings) (s : Schedule) (e : Errand) : Ending × Schedule :=
  let (s, ending, _) := (s.moveClock e.instant).execute env e.order.program e.deadline
  (ending, s)

/-- Runs commands to their ends, one after the other. -/
def attendAll (env : Surroundings) : List Errand → Schedule → List Ending × Schedule
  | [], s => ([], s)
  | e :: es, s =>
    let (ending, s) := s.attend env e
    let (endings, s) := attendAll env es s
    (ending :: endings, s)

/-- The calls of some commands, with what is seen before each of them. -/
def exchanges (env : Surroundings) : List Errand → Schedule → List (View × Exchange)
  | [], _ => []
  | e :: es, s =>
    (s.moveClock e.instant).ledger.exchanges env s.nextAgent e.order.program ++
      exchanges env es (s.attend env e).2

/-- The ids that some commands mint. -/
def minted (env : Surroundings) (es : List Errand) (s : Schedule) : List (Result WalletId) :=
  (s.exchanges env es).filterMap (Exchange.minted? ∘ Prod.snd)

theorem minted_cons (env : Surroundings) (e : Errand) (es : List Errand) (s : Schedule) :
    s.minted env (e :: es) =
      (s.moveClock e.instant).ledger.minted env s.nextAgent e.order.program ++
        (s.attend env e).2.minted env es := by
  unfold minted
  rw [exchanges, List.filterMap_append]
  rfl

/-- A program that ends is not let run again. One that ran into an arithmetic limit is dropped. -/
theorem turn_over {progress : Progress Reply} {ending : Ending} {l : Ledger}
    (hOver : progress.Over ending l) (s : Schedule) (a : Agent) (deadline : Option Instant) :
    ∃ s', s.turn a deadline progress = .ended ending s' ∧
      (s'.ledger = l ∨ s'.ledger = (l.abandon a none).1) := by
  cases hOver with
  | ended r woken => exact ⟨_, rfl, Or.inl rfl⟩
  | faulted f woken => exact ⟨_, rfl, Or.inr rfl⟩

/-- A command whose program ends at once. -/
theorem attend_over {env : Surroundings} {s : Schedule} {e : Errand} {ending : Ending} {l : Ledger}
    (hOver : ((s.moveClock e.instant).ledger.drive env s.nextAgent e.order.program []).Over ending l) :
    ∃ s', s.attend env e = (ending, s') ∧
      (s'.ledger = l ∨ s'.ledger = (l.abandon s.nextAgent none).1) := by
  obtain ⟨s', hTurn, hLedger⟩ := turn_over hOver
    { s.moveClock e.instant with nextAgent := s.nextAgent + 1 } s.nextAgent e.deadline
  refine ⟨s', ?_, hLedger⟩
  have hStart : (s.moveClock e.instant).start env e.order.program e.deadline = .ended ending s' :=
    hTurn
  simp only [attend, execute, hStart]

end Schedule

-- ---------------------------------------------------------------------------
-- Commands over a database
-- ---------------------------------------------------------------------------

namespace Remote

open Store

namespace Branch

/-- Runs a command to its end. -/
def attend (b : Branch) (e : Errand) : Ending × Branch :=
  run e.order.program
    { b with
      now := max b.now e.instant
      wall := e.wall
      table := { b.table with now := e.server } }

/-- Runs commands to their ends, one after the other. -/
def attendAll : List Errand → Branch → List Ending × Branch
  | [], b => ([], b)
  | e :: es, b =>
    let (ending, b) := b.attend e
    let (endings, b) := attendAll es b
    (ending :: endings, b)

end Branch

-- ---------------------------------------------------------------------------
-- Both
-- ---------------------------------------------------------------------------

namespace Mirror

variable {env : Surroundings} {a : Agent} {l : Ledger} {b : Branch} {s : Schedule}

theorem empty (lifetime : Nat) (minted : List (Result WalletId)) (a : Agent) :
    Mirror a false (Ledger.empty lifetime) (Branch.empty lifetime minted) :=
  between resting_empty ⟨fun _ => rfl, rfl⟩ rfl rfl rfl .empty

/-- Agents take turns. -/
theorem agent (hMirror : Mirror a false l b) (a' : Agent) : Mirror a' false l b :=
  between hMirror.resting hMirror.unhindered hMirror.keys hMirror.now (hMirror.closed rfl).2
    hMirror.kept

/-- The clocks are moved on, those beside the database as they may. -/
theorem clock (hMirror : Mirror a false l b) (instant : Instant) (wall server : Timestamp) :
    Mirror a false { l with now := max l.now instant }
      { b with now := max b.now instant, wall, table := { b.table with now := server } } :=
  between hMirror.resting ⟨hMirror.unhindered.failing, hMirror.unhindered.armed⟩ hMirror.keys
    (congrArg (max · instant) hMirror.now) (hMirror.closed rfl).2 hMirror.kept

/-- An agent without a transaction leaves nothing behind when it is dropped. -/
theorem abandoned (hMirror : Mirror a false l b) : Mirror a false (l.abandon a none).1 b := by
  have hResting := hMirror.resting
  have hRows : (l.store.drop a).1.rows = l.store.rows := by
    unfold drop
    rw [locked, hResting.idle a]
    rfl
  have hWallets : (l.store.drop a).1.wallet? = l.store.wallet? := by
    unfold wallet?
    rw [hRows]
  have hDropped : (l.store.drop a).1.Resting := by
    refine ⟨?_, ?_, fun x => ?_⟩
    · rw [hRows]
      exact hResting.free
    · rw [hWallets]
      exact hResting.keyed
    · rw [copies_drop, hResting.idle x, ite_self]
  have hKept := hMirror.kept
  rw [← hRows, ← hWallets] at hKept
  have hArmed := (l.store.keeps_drop a).armed.trans hMirror.unhindered.armed
  exact between hDropped ⟨hMirror.unhindered.failing, hArmed⟩ hMirror.keys hMirror.now
    (hMirror.closed rfl).2 hKept

/-- One command ends alike on both sides, and leaves both sides alike. -/
theorem attend (hMirror : Mirror a false s.ledger b) {e : Errand} {rest : List (Result WalletId)}
    (hFits : ∀ x ∈ (s.moveClock e.instant).ledger.exchanges env s.nextAgent e.order.program,
      x.2.call.SumsFit x.1)
    (hMinted : b.minted =
      (s.moveClock e.instant).ledger.minted env s.nextAgent e.order.program ++ rest) :
    (s.attend env e).1.Matches (b.attend e).1 ∧
      Mirror s.nextAgent false (s.attend env e).2.ledger (b.attend e).2 ∧
      (b.attend e).2.minted = rest := by
  have hStart := (hMirror.agent s.nextAgent).clock e.instant e.wall e.server
  obtain ⟨ending, l', ending', b', hOver, hRun, hMatches, hAfter, hRest⟩ :=
    run e.order.alike hStart hFits hMinted []
  obtain ⟨s', hAttend, hLedger⟩ := Schedule.attend_over hOver
  rw [hAttend, show b.attend e = (ending', b') from hRun]
  refine ⟨hMatches, ?_, hRest⟩
  rcases hLedger with hLedger | hLedger
  · rw [hLedger]
    exact hAfter
  · rw [hLedger]
    exact hAfter.abandoned

/-- Commands end alike on both sides, and leave both sides alike. -/
theorem attendAll {es : List Errand} (hMirror : Mirror a false s.ledger b)
    (hFits : ∀ x ∈ s.exchanges env es, x.2.call.SumsFit x.1)
    (hMinted : b.minted = s.minted env es) :
    List.Forall₂ Ending.Matches (s.attendAll env es).1 (b.attendAll es).1 ∧
      Mirror 0 false (s.attendAll env es).2.ledger (b.attendAll es).2 := by
  induction es generalizing s b a with
  | nil => exact ⟨.nil, hMirror.agent 0⟩
  | cons e es ih =>
    rw [Schedule.exchanges, List.forall_mem_append] at hFits
    rw [Schedule.minted_cons] at hMinted
    obtain ⟨hMatches, hAfter, hRest⟩ := hMirror.attend hFits.1 hMinted
    obtain ⟨hAll, hLast⟩ := ih hAfter hFits.2 hRest
    exact ⟨.cons hMatches hAll, hLast⟩

end Mirror

/-- The wallets of the rows in a database, without what an open transaction has changed. -/
def Branch.wallets (b : Branch) : Result (List Wallet) :=
  allWallets (b.table.saved.getD b.table.rows)

/-- From empty stores on, every sequence of commands ends over a database as it does in memory: with the
same results, and with the same wallets stored. All that is asked is that each sum of a balance and an
amount fits, written with as many places as the one of them that has more. -/
theorem backends_agree (env : Surroundings) (lifetime : Nat) (es : List Errand)
    (hFits : ∀ x ∈ (Schedule.empty lifetime).exchanges env es, x.2.call.SumsFit x.1) :
    let memory := (Schedule.empty lifetime).attendAll env es
    let remote := (Branch.empty lifetime ((Schedule.empty lifetime).minted env es)).attendAll es
    List.Forall₂ Ending.Matches memory.1 remote.1 ∧
      ∃ stored, remote.2.wallets = .ok stored ∧
        List.Forall₂ Wallet.Matches memory.2.ledger.store.wallets stored := by
  have hStart : Mirror 0 false (Schedule.empty lifetime).ledger
      (Branch.empty lifetime ((Schedule.empty lifetime).minted env es)) := .empty lifetime _ 0
  obtain ⟨hEndings, hMirror⟩ := hStart.attendAll hFits rfl
  refine ⟨hEndings, ?_⟩
  unfold Branch.wallets
  rw [(hMirror.closed rfl).2, wallets_eq_filterMap]
  exact Kept.exists_allWallets hMirror.kept.forall₂_wallets

/-- An amount by its parts, if there is one of them. -/
def amountOf (negative : Bool) (mantissa scale : Nat) : Decimal :=
  (Decimal.ofParts? negative mantissa scale).getD Decimal.zero

/-- Two wallets, with 10.50 and nothing; amounts of other scales, one under a key in use and one that the
balance does not cover; a transfer that empties a wallet, and one more; and what there is to be read. -/
def workday : List Order :=
  let one := (UserId.ofNat 1).text
  let two := (UserId.ofNat 2).text
  let first := (WalletId.ofNat 1).text
  let second := (WalletId.ofNat 2).text
  [.create (some ⟨one, amountOf false 1050 2⟩),
    .command (.createWallet two),
    .topup none,
    .topup (some ⟨first, one, amountOf false 125 3, "key"⟩),
    .topup (some ⟨first, one, amountOf false 1 0, "key"⟩),
    .topup (some ⟨first, one, amountOf true 11 0, "other"⟩),
    .transfer (some ⟨one, first, two, second, amountOf false 10625 3⟩),
    .command (.transfer ⟨one, first, two, second, amountOf false 1 0⟩),
    .command (.wallet second),
    .command (.userWallets two)]

/-- The commands of a day, all of them at one instant. -/
def errands : List Errand :=
  workday.map fun order => ⟨order, 0, some 0, Timestamp.epoch, Timestamp.epoch⟩

/-- Clocks that stand still. -/
def stopped : Surroundings := ⟨fun _ => Timestamp.epoch, fun _ => 0⟩

/-- Both sides agree on the commands of a day, after which nothing is left in the first wallet. -/
theorem workday_agrees :
    let start := Schedule.empty 60000
    let memory := start.attendAll stopped errands
    let remote := (Branch.empty 60000 (start.minted stopped errands)).attendAll errands
    (∀ x ∈ start.exchanges stopped errands, x.2.call.SumsFit x.1) ∧
      memory.2.ledger.store.wallets.map Wallet.balance =
        [amountOf false 0 3, amountOf false 10625 3] ∧
      List.Forall₂ Ending.Matches memory.1 remote.1 ∧
      ∃ stored, remote.2.wallets = .ok stored ∧
        List.Forall₂ Wallet.Matches memory.2.ledger.store.wallets stored := by
  have hFits : ∀ x ∈ (Schedule.empty 60000).exchanges stopped errands, x.2.call.SumsFit x.1 := by
    decide +kernel
  refine ⟨hFits, ?_, backends_agree stopped 60000 errands hFits⟩
  decide +kernel

end Remote

end Purse
