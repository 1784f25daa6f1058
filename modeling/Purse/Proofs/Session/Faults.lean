import Purse.CommandLine.Config
import Purse.Proofs.Service.TopupCalls
import Purse.Proofs.Session.Turns

/-!
# Which commands break down

Whatever has been done in a session before, a command ends in a result or an error, with one
exception: a top-up whose key is free is not answered if the lifetime of the key's claim reaches beyond
the last instant. With the settings that there are that can happen at once, as a lifetime may be
longer than all the time there is. Sums of decimals are not to blame: where there is no decimal for a
sum, the command is refused.

## Definitions

* `Session.after`: a session after some steps.
* `Ledger.BreaksDown`: the exception.

## Results

* `Session.calm_step`: commands that wait in a session have no claim before them, step by step.
* `Session.breaks_down_iff`: a command ends in a result or an error, or it is the exception.
* `Session.endless_lifetime_breaks_down`: a lifetime with which the first top-up is the exception.
-/

namespace Purse

/-- The command has to claim its key, and the claim would end where no instant lies: the key is
free, and no failure has been arranged for the call. -/
def Ledger.BreaksDown (l : Ledger) (lifetime : Nat) : Command → Prop
  | .topup r => r.key.isEmpty = false ∧ l.failing.get? .claim = none ∧
      l.keys.isLive l.now r.key = false ∧ Instant.limit ≤ l.now + lifetime
  | .createWallet _ | .transfer _ | .wallet _ | .userWallets _ => False

namespace Ledger

theorem overstepsFirst_toppingUp (l : Ledger) (r : Topup) :
    l.OverstepsFirst (toppingUp (some r)) ↔ r.key.isEmpty = false ∧ l.Oversteps r.key := by
  rw [toppingUp_some]
  by_cases hKey : r.key.isEmpty = true
  · rw [if_pos hKey, hKey]
    exact ⟨False.elim, fun hBoth => Bool.noConfusion hBoth.1⟩
  · rw [if_neg hKey]
    exact ⟨fun hOversteps => ⟨by simpa using hKey, hOversteps⟩, And.right⟩

theorem overstepsFirst_iff (l : Ledger) (c : Command) :
    l.OverstepsFirst c.program ↔ l.BreaksDown l.keys.lifetime c := by
  by_cases hTopup : ∃ r, c = .topup r
  · obtain ⟨r, rfl⟩ := hTopup
    rw [Command.program, overstepsFirst_toppingUp]
    constructor
    · rintro ⟨hKey, hUnhindered, hFree, hBeyond⟩
      exact ⟨hKey, hUnhindered, hFree, hBeyond⟩
    · rintro ⟨hKey, hUnhindered, hFree, hBeyond⟩
      exact ⟨hKey, hUnhindered, hFree, hBeyond⟩
  · have hNot : ∀ r, c ≠ .topup r := fun r hSame => hTopup ⟨r, hSame⟩
    refine ⟨fun hOversteps => absurd hOversteps (not_overstepsFirst (c.keyless hNot) l), ?_⟩
    intro hBroken
    exfalso
    cases c with
    | topup r => exact hNot r rfl
    | createWallet | transfer | wallet | userWallets => exact hBroken

end Ledger

namespace Session

variable {s : Session} {lifetime : Nat}

/-- A session after some steps. -/
def after (env : Surroundings) (s : Session) (steps : List SessionStep) : Session :=
  steps.foldl (fun s x => (s.step env x).1) s

-- ---------------------------------------------------------------------------
-- One step
-- ---------------------------------------------------------------------------

theorem calm_byHand (hCalm : s.schedule.Calm lifetime) (env : Surroundings) (a : Agent) (c : Call) :
    (s.byHand env a c).1.schedule.Calm lifetime := by
  have hLifetime : (s.schedule.ledger.execute env a c).ledger.keys.lifetime = lifetime :=
    (Ledger.execute_keyed env).lifetime_eq.trans hCalm.lifetime_eq
  unfold byHand
  cases hOutcome : s.schedule.ledger.execute env a c with
  | replied r l woken =>
    rw [hOutcome] at hLifetime
    exact hCalm.wake hLifetime woken
  | waiting row l => exact hCalm
  | faulted f l =>
    rw [hOutcome] at hLifetime
    exact hCalm.of_ledger hLifetime rfl

theorem calm_within (hCalm : s.schedule.Calm lifetime) (env : Surroundings) (name : String)
    (c : Call) : (s.within env name c).1.schedule.Calm lifetime := by
  unfold within
  split
  · exact calm_byHand hCalm env _ c
  · exact hCalm

theorem calm_dropNamed (hCalm : s.schedule.Calm lifetime) (name : String) :
    (s.dropNamed name).schedule.Calm lifetime := by
  unfold dropNamed
  split
  · exact hCalm.abandon _ none
  · exact hCalm

theorem calm_finishNamed (hCalm : s.schedule.Calm lifetime) (env : Surroundings) (name : String)
    (outcome : Result Unit) : (s.finishNamed env name outcome).1.schedule.Calm lifetime := by
  unfold finishNamed
  split
  · exact hCalm
  · next a _ =>
    have hDriven :=
      (Ledger.drive_keyless (keyless_finish outcome) env s.schedule.ledger a []).1.lifetime_eq
    rw [hCalm.lifetime_eq] at hDriven
    simp only
    split <;> rename_i hProgress <;> rw [hProgress] at hDriven
    · exact hCalm.wake hDriven _
    · exact hCalm.wake hDriven _
    · exact hCalm
    · exact hCalm.wake hDriven _

/-- The one ending at a limit that a step may bring about: a command that has just been started in the
background and breaks down. -/
def BrokenDown (s : Session) (x : SessionStep) (lifetime : Nat) (task : String) (f : Fault) : Prop :=
  f = .instantOverflow ∧ ∃ c, x = .spawn task c ∧ s.schedule.ledger.BreaksDown lifetime c

/-- What a step is up to the commands that it lets go on. -/
structure Calmly (s : Session) (x : SessionStep) (lifetime : Nat)
    (acted : Session × Answer × List (Agent × Ending)) : Prop where
  calm : acted.1.schedule.Calm lifetime
  ended : ∀ a f, (a, .fault f) ∈ acted.2.2 → ∃ task, acted.1.tasks.get? a = some task ∧
    s.BrokenDown x lifetime task f

theorem calmly_still {x : SessionStep} {acted : Session × Answer}
    (hCalm : acted.1.schedule.Calm lifetime) : s.Calmly x lifetime (act.still acted) :=
  ⟨hCalm, by rintro _ _ ⟨⟩⟩

theorem calmly_foreground (hCalm : s.schedule.Calm lifetime) (env : Surroundings) {p : Program Reply}
    (hAsks : p.AsksFirst) (deadline : Option Instant) (x : SessionStep) :
    s.Calmly x lifetime (s.foreground env p deadline) := by
  obtain ⟨hExecuted, -, hOthers⟩ := Schedule.calm_execute hCalm env deadline hAsks
  refine ⟨hExecuted, fun a f hMem => ?_⟩
  cases hOthers (a, .fault f) hMem

theorem calmly_spawn (hCalm : s.schedule.Calm lifetime) (env : Surroundings) (task : String)
    (c : Command) : s.Calmly (.spawn task c) lifetime (s.act env (.spawn task c)) := by
  obtain ⟨⟨hSchedule, hWaiter⟩, hFault⟩ :=
    Schedule.calm_start hCalm env (some s.deadline) c.asksFirst
  rw [Ledger.overstepsFirst_iff, hCalm.lifetime_eq] at hFault
  rw [act]
  unfold Schedule.spawn
  cases hTurn : s.schedule.start env c.program (some s.deadline) with
  | ended e s' =>
    rw [hTurn] at hSchedule hFault
    -- the command is over at once, and nobody else's is
    refine ⟨hSchedule, fun a f hMem => ?_⟩
    cases List.mem_singleton.mp hMem
    refine ⟨task, Table.get?_put_self _ _ _, ?_⟩
    rcases hFault with ⟨-, hNone⟩ | ⟨hBroken, hSome⟩
    · cases hNone
    · exact ⟨Option.some.inj hSome, c, rfl, hBroken⟩
  | waiting w s' =>
    rw [hTurn] at hSchedule hWaiter
    refine ⟨⟨hSchedule.lifetime_eq, fun v hMem => ?_⟩, by rintro _ _ ⟨⟩⟩
    rcases List.mem_append.mp hMem with hOld | hNew
    · exact hSchedule.keyless v hOld
    · rw [List.mem_singleton.mp hNew]
      exact hWaiter w s' rfl

theorem calmly_act (hCalm : s.schedule.Calm lifetime) (env : Surroundings) (x : SessionStep) :
    s.Calmly x lifetime (s.act env x) := by
  cases x with
  | command c => exact calmly_foreground hCalm env c.asksFirst _ _
  | create request => exact calmly_foreground hCalm env (.keyless (keyless_creation request)) _ _
  | topup request => exact calmly_foreground hCalm env (asksFirst_toppingUp request) _ _
  | transfer request =>
    exact calmly_foreground hCalm env (.keyless (keyless_transferring request)) _ _
  | spawn task c => exact calmly_spawn hCalm env task c
  | advance ms => exact ⟨hCalm.moveClock _, by rintro _ _ ⟨⟩⟩
  | insert | get | list | claim | release =>
    rw [act]
    exact calmly_still (calm_byHand hCalm env _ _)
  | add wallet amount =>
    rw [act]
    refine calmly_still (calm_byHand ?_ env _ _)
    exact hCalm.of_ledger hCalm.lifetime_eq rfl
  | lock | addWithin | commit | rollback =>
    rw [act]
    exact calmly_still (calm_within hCalm env _ _)
  | begin name =>
    have hDropped := calm_dropNamed hCalm name
    rw [act]
    exact calmly_still (hDropped.of_ledger hDropped.lifetime_eq rfl)
  | drop name =>
    rw [act]
    split
    · exact calmly_still (calm_dropNamed hCalm name)
    · exact calmly_still hCalm
  | finish name outcome =>
    rw [act]
    exact calmly_still (calm_finishNamed hCalm env name outcome)
  | total | lockOrder =>
    rw [act]
    split <;> exact calmly_still hCalm
  | size | keysSize =>
    rw [act]
    exact calmly_still hCalm
  | failUpdates | fail | purge =>
    rw [act]
    exact calmly_still (hCalm.of_ledger hCalm.lifetime_eq rfl)

theorem calm_step (hCalm : s.schedule.Calm lifetime) (env : Surroundings) (x : SessionStep) :
    (s.step env x).1.schedule.Calm lifetime := by
  have hSettled := (Schedule.calm_settle (calmly_act hCalm env x).calm env).1
  exact hSettled.of_ledger hSettled.lifetime_eq rfl

/-- No command ends at a limit in the background but one that is being started and breaks down. -/
theorem broken_down_of_ended (hCalm : s.schedule.Calm lifetime) (env : Surroundings)
    (x : SessionStep) {task : String} {f : Fault}
    (hEnded : (task, .fault f) ∈ (s.step env x).2.ended) : s.BrokenDown x lifetime task f := by
  obtain ⟨hActed, hFirst⟩ := calmly_act hCalm env x
  obtain ⟨⟨a, ending⟩, hMem, hTask⟩ := List.mem_filterMap.mp hEnded
  obtain ⟨name, hName, hPair⟩ := Option.map_eq_some_iff.mp hTask
  cases hPair
  -- either at once, or among those that the step has let go on
  rcases List.mem_append.mp hMem with hFirstly | hLater
  · obtain ⟨task', hTask', hBroken⟩ := hFirst a f hFirstly
    obtain rfl := Option.some.inj (hName.symm.trans hTask')
    exact hBroken
  · cases (Schedule.calm_settle hActed env).2 (a, .fault f) hLater

/-- A command ends in a result or an error, unless it breaks down. -/
theorem answer_command (hCalm : s.schedule.Calm lifetime) (env : Surroundings) (c : Command) :
    ¬ s.schedule.ledger.BreaksDown lifetime c ∧
        (∃ r, (s.step env (.command c)).2.answer = .ofEnding (.result r)) ∨
      s.schedule.ledger.BreaksDown lifetime c ∧
        (s.step env (.command c)).2.answer = .fault .instantOverflow := by
  obtain ⟨-, hFault, -⟩ := Schedule.calm_execute hCalm env (some s.deadline) c.asksFirst
  rw [Ledger.overstepsFirst_iff, hCalm.lifetime_eq] at hFault
  have hAnswer : (s.step env (.command c)).2.answer =
      .ofEnding (s.schedule.execute env c.program (some s.deadline)).2.1 := rfl
  rw [hAnswer]
  generalize (s.schedule.execute env c.program (some s.deadline)).2.1 = ending at hFault
  rcases hFault with ⟨hNot, hNone⟩ | ⟨hBroken, hSome⟩
  · cases ending with
    | result r => exact Or.inl ⟨hNot, r, rfl⟩
    | fault f => cases hNone
  · cases ending with
    | result r => cases hSome
    | fault f =>
      cases hSome
      exact Or.inr ⟨hBroken, rfl⟩

-- ---------------------------------------------------------------------------
-- Any number of steps
-- ---------------------------------------------------------------------------

theorem calm_after (hCalm : s.schedule.Calm lifetime) (env : Surroundings)
    (steps : List SessionStep) : (s.after env steps).schedule.Calm lifetime := by
  induction steps generalizing s with
  | nil => exact hCalm
  | cons x steps ih => exact ih (calm_step hCalm env x)

theorem calm_empty (lifetime timeout : Nat) : (empty lifetime timeout).schedule.Calm lifetime :=
  ⟨rfl, by rintro _ ⟨⟩⟩

/-- With any settings and after any steps, a command ends in a result or an error, unless the end of
its claim on a key would be no instant; then it ends at that limit, be it in the foreground or in the
background. No other limit is there for any command to end at. -/
theorem breaks_down_iff (config : Config) (env : Surroundings) (steps : List SessionStep) :
    let s := (empty config.keyLifetime config.requestTimeout).after env steps
    (∀ c, ¬ s.schedule.ledger.BreaksDown config.keyLifetime c →
      ∃ r, (s.step env (.command c)).2.answer = .ofEnding (.result r)) ∧
    (∀ c, s.schedule.ledger.BreaksDown config.keyLifetime c →
      (s.step env (.command c)).2.answer = .fault .instantOverflow) ∧
    ∀ x task f, (task, .fault f) ∈ (s.step env x).2.ended → f = .instantOverflow ∧
      ∃ c, x = .spawn task c ∧ s.schedule.ledger.BreaksDown config.keyLifetime c := by
  intro s
  have hCalm : s.schedule.Calm config.keyLifetime := calm_after (calm_empty _ _) env steps
  refine ⟨fun c hNot => ?_, fun c hBroken => ?_, fun x task f => broken_down_of_ended hCalm env x⟩
  · rcases answer_command hCalm env c with ⟨-, hResult⟩ | ⟨hBroken, -⟩
    · exact hResult
    · exact absurd hBroken hNot
  · rcases answer_command hCalm env c with ⟨hNot, -⟩ | ⟨-, hFault⟩
    · exact absurd hBroken hNot
    · exact hFault

/-- The longest lifetime that can be set is longer than all the time there is. -/
def endlessLifetime : Config :=
  { Config.standard with keyLifetimeSecs := 18446744073709551615 }

/-- A session with that lifetime, in which user 1 has a wallet. -/
def endless : Session :=
  (empty endlessLifetime.keyLifetime endlessLifetime.requestTimeout).after Crowd.stillness
    [.insert (Crowd.walletOf 1 (Crowd.coins 10))]

/-- A top-up of that wallet. -/
def firstTopup : Topup :=
  ⟨(WalletId.ofNat 1).text, (UserId.ofNat 1).text, Crowd.coins 3, "key"⟩

/-- With the longest lifetime that can be set, the first top-up is not answered, though its wallet is
there and its amount could be added. -/
theorem endless_lifetime_breaks_down :
    endless.schedule.ledger.store.wallet? (.ofNat 1) =
        some (Crowd.walletOf 1 (Crowd.coins 10)) ∧
      firstTopup.Valid (.ofNat 1) ∧
      Decimal.add? (Crowd.coins 10) (Crowd.coins 3) = some (Crowd.coins 13) ∧
      (endless.step Crowd.stillness (.command (.topup firstTopup))).2.answer =
        .fault .instantOverflow := by
  have hFacts : endless.schedule.ledger.store.wallet? (.ofNat 1) =
        some (Crowd.walletOf 1 (Crowd.coins 10)) ∧
      WalletId.parseTrimmed? firstTopup.walletId = some (.ofNat 1) ∧
      UserId.parseTrimmed? firstTopup.userId = some (.ofNat 1) ∧
      firstTopup.amount.isZero = false ∧
      Decimal.add? (Crowd.coins 10) (Crowd.coins 3) = some (Crowd.coins 13) := by
    decide +kernel
  have hBroken : firstTopup.key.isEmpty = false ∧
      endless.schedule.ledger.failing.get? .claim = none ∧
      endless.schedule.ledger.keys.isLive endless.schedule.ledger.now firstTopup.key = false ∧
      Instant.limit ≤ endless.schedule.ledger.now + endlessLifetime.keyLifetime := by
    decide +kernel
  obtain ⟨hThere, hWallet, hUser, hAmount, hSum⟩ := hFacts
  have hDown : ∀ c, endless.schedule.ledger.BreaksDown endlessLifetime.keyLifetime c →
      (endless.step Crowd.stillness (.command c)).2.answer = .fault .instantOverflow :=
    (breaks_down_iff endlessLifetime Crowd.stillness _).2.1
  have hAnswer := hDown (.topup firstTopup) hBroken
  exact ⟨hThere, ⟨hWallet, ⟨_, hUser⟩, hAmount⟩, hSum, hAnswer⟩

end Session

end Purse
