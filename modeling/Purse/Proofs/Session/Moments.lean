import Purse.Proofs.Session.Faults
import Purse.Proofs.Session.Hands

/-!
# Sessions over time

A step of a session is taken when all is still, and afterwards all is still again. The clock is moved
by a step that advances it, and while a command in the foreground waits. Whoever is cancelled by a step
was overtaken by the clock, or was started by this step with no time at all and had to wait.

## Definitions

* `Session.ticks`, `Session.ticksOver`: the moments at which the clock is moved by a step, and by steps.
* `Session.endings`: the commands that end by a step, by agents.
* `Session.Still`: a session between two steps.
* `Session.HasToWait`: the command that a step starts has to wait.

## Results

* `Still.acts_step`: who waits after a step, and who is cancelled by it; then all is still again.
* `Still.still_of_mem_ticks`: so it is whenever a step moves the clock.
-/

namespace Purse

/-- The command that a step starts under the time limit. -/
def SessionStep.command? : SessionStep → Option Command
  | .command c | .spawn _ c => some c
  | _ => none

namespace Session

open Schedule (Overdue)

variable {env : Surroundings} {s s' : Session} {a : Agent} {x : SessionStep} {w : Waiter} {t : Tick}

/-- The moments at which a step moves the clock. -/
def ticks (env : Surroundings) (s : Session) : SessionStep → List Tick
  | .command c => s.schedule.ticksOf env c.program (some s.deadline)
  | .create request => s.schedule.ticksOf env (creation request) none
  | .topup request => s.schedule.ticksOf env (toppingUp request) none
  | .transfer request => s.schedule.ticksOf env (transferring request) none
  | .advance ms => [⟨s.schedule, none, s.schedule.ledger.now + ms⟩]
  | _ => []

/-- The moments at which the clock is moved during some steps. -/
def ticksOver (env : Surroundings) (s : Session) : List SessionStep → List Tick
  | [] => []
  | x :: xs => s.ticks env x ++ ticksOver env (s.step env x).1 xs

/-- The ending of the command that a step runs in the foreground, with a deadline. -/
def ownEnding (env : Surroundings) (s : Session) (deadline : Option Instant) :
    SessionStep → List (Agent × Ending)
  | .command c => [(s.schedule.nextAgent, (s.schedule.execute env c.program deadline).2.1)]
  | _ => []

/-- The endings that a step brings about, by the agents of the commands. -/
def endings (env : Surroundings) (s : Session) (x : SessionStep) : List (Agent × Ending) :=
  s.ownEnding env (some s.deadline) x ++ (s.act env x).2.2 ++ ((s.act env x).1.schedule.settle env).2

/-- The session is between two steps: all is still. -/
structure Still (s : Session) : Prop where
  inOrder : s.InOrder
  ready_eq : s.schedule.ready = []

theorem Still.schedule (hStill : s.Still) : s.schedule.Still s.schedule.waiters :=
  ⟨hStill.inOrder.schedule, hStill.ready_eq⟩

theorem Still.not_overdue (hStill : s.Still) (a : Agent) : ¬ s.schedule.Overdue a := by
  rintro ⟨w, hw, -, hDue⟩
  rw [(hStill.schedule.ahead hw).2] at hDue
  cases hDue

theorem still_empty (lifetime timeout : Nat) : (empty lifetime timeout).Still where
  inOrder := by
    refine ⟨⟨?_, by rintro _ ⟨⟩, List.nodup_nil, by rintro _ ⟨⟩, fun _ _ => rfl, List.nodup_nil,
      by rintro _ ⟨⟩, by rintro _ ⟨⟩, by rintro _ ⟨⟩⟩, by rintro _ ⟨⟩, by rintro _ _ ⟨⟩⟩
    -- a crowd of agents that are done
    refine ⟨⟨Ledger.empty lifetime, fun _ => .ended (.result (.ok .unit))⟩, rfl, ⟨?_, ?_⟩,
      by rintro _ ⟨⟩, fun _ => rfl⟩
    · exact Store.resting_empty.coherent
    · exact fun _ => ⟨false, rfl, fun _ => rfl⟩
  ready_eq := rfl

/-- The command that a step starts under the time limit has to wait for a row. -/
def HasToWait (env : Surroundings) (s : Session) (x : SessionStep) : Prop :=
  ∃ c, x.command? = some c ∧
    (s.schedule.ledger.drive env s.schedule.nextAgent c.program []).Waits

/-- What becomes of a session by a step, with the endings that come of it. -/
structure Acts (env : Surroundings) (s : Session) (x : SessionStep) (s' : Session)
    (endings : List (Agent × Ending)) : Prop where
  inOrder : s'.InOrder
  timeout_eq : s'.timeout = s.timeout
  next_le : s.schedule.nextAgent ≤ s'.schedule.nextAgent
  accounts : s.schedule.Accounts s'.schedule endings
  begun : x.command? ≠ none → s.schedule.nextAgent < s'.schedule.nextAgent ∧
    ((∃ w ∈ s'.schedule.waiters, w.agent = s.schedule.nextAgent) ∨
      ∃ e, (s.schedule.nextAgent, e) ∈ endings)
  waiters : ∀ w ∈ s'.schedule.waiters,
    (∃ v ∈ s.schedule.waiters, v.agent = w.agent ∧ v.deadline = w.deadline) ∨
      s.HasToWait env x ∧ w.agent = s.schedule.nextAgent ∧ w.deadline = some s.deadline
  cancelled : ∀ a, (a, .result (.error .cancelled)) ∈ endings ∨ s'.schedule.Overdue a →
    s.schedule.Overdue a ∨ (∃ t ∈ s.ticks env x, t.Overtakes a) ∨
      a = s.schedule.nextAgent ∧ s.timeout = 0 ∧ s.HasToWait env x

/-! ## The parts of a step -/

/-- A step that starts nothing in the background, by what it makes of the schedule. -/
theorem InOrder.acts_of_elapses (hOrder : s.InOrder) {schedule : Schedule}
    {first own : List (Agent × Ending)}
    (hSchedule : schedule.InOrder none [] schedule.waiters)
    (hElapses : s.schedule.Elapses schedule (s.ticks env x) first)
    (hBegun : x.command? ≠ none → s.schedule.nextAgent < schedule.nextAgent ∧
      ∃ e, (s.schedule.nextAgent, e) ∈ own)
    (hOwn : ∀ a, (a, .result (.error .cancelled)) ∈ own →
      (∃ t ∈ s.ticks env x, t.Overtakes a) ∨
        a = s.schedule.nextAgent ∧ s.timeout = 0 ∧ s.HasToWait env x) :
    s.Acts env x { s with schedule } (own ++ first) where
  inOrder := by
    refine ⟨hSchedule, hElapses.timely, fun hName => ?_⟩
    obtain ⟨hLt, hNot⟩ := hOrder.named hName
    refine ⟨Nat.lt_of_lt_of_le hLt hElapses.next_le, fun w hw => ?_⟩
    obtain ⟨v, hv, hAgent, -⟩ := hElapses.follows w hw
    rw [← hAgent]
    exact hNot v hv
  timeout_eq := rfl
  next_le := hElapses.next_le
  accounts w hw := (hElapses.accounts w hw).imp_right fun ⟨e, hEnded⟩ =>
    ⟨e, List.mem_append_right own hEnded⟩
  begun hSome := by
    obtain ⟨hLt, e, hEnded⟩ := hBegun hSome
    exact ⟨hLt, Or.inr ⟨e, List.mem_append_left first hEnded⟩⟩
  waiters w hw := Or.inl (hElapses.follows w hw)
  cancelled a hCut := by
    rw [List.mem_append, or_assoc] at hCut
    rcases hCut with hMine | hRest
    · exact Or.inr (hOwn a hMine)
    · exact (hElapses.overdue a hRest).imp_right Or.inl

theorem Steps.acts (hOrder : s.InOrder) (hSteps : s.Steps s') (hNone : x.command? = none) :
    s.Acts env x s' [] where
  inOrder := hOrder.steps hSteps
  timeout_eq := hSteps.timeout_eq
  next_le := hSteps.byHand.next_le
  accounts := (hSteps.byHand.elapses hOrder.timely).accounts
  begun hSome := absurd hNone hSome
  waiters w hw := Or.inl ((hSteps.byHand.elapses hOrder.timely).follows w hw)
  cancelled a hCut :=
    ((hSteps.byHand.elapses hOrder.timely).overdue a hCut).imp_right (by rintro ⟨_, ⟨⟩, _⟩)

theorem timeout_eq_zero (hNow : s.deadline ≤ s.schedule.ledger.now) : s.timeout = 0 :=
  Nat.eq_zero_of_le_zero (Nat.le_of_add_le_add_left hNow)

/-- A program without a time limit that is run in the foreground. -/
theorem InOrder.acts_execute (hOrder : s.InOrder) (env : Surroundings) {p : Program Reply}
    (hStart : p.Startable) (hTicks : s.ticks env x = s.schedule.ticksOf env p none)
    (hNone : x.command? = none) :
    s.Acts env x (s.foreground env p none).1 ([] ++ (s.foreground env p none).2.2) := by
  refine hOrder.acts_of_elapses (hOrder.schedule.execute env hStart none) ?_
    (fun hSome => absurd hNone hSome) (by rintro _ ⟨⟩)
  rw [hTicks]
  exact Schedule.elapses_execute env hOrder.timely p none

theorem InOrder.acts_command (hOrder : s.InOrder) (env : Surroundings) (c : Command) :
    s.Acts env (.command c) (s.foreground env c.program (some s.deadline)).1
      (s.ownEnding env (some s.deadline) (.command c) ++ (s.foreground env c.program (some s.deadline)).2.2) := by
  refine hOrder.acts_of_elapses (hOrder.schedule.execute env c.startable (some s.deadline))
    (Schedule.elapses_execute env hOrder.timely c.program _)
    (fun _ => ⟨Schedule.next_lt_execute env hOrder.timely c.program _, _,
      List.mem_singleton_self _⟩) fun a hMem => ?_
  obtain ⟨rfl, hEnding⟩ := Prod.mk.inj (List.mem_singleton.mp hMem)
  obtain hOvertaken | ⟨hNow, hWaits⟩ := hOrder.schedule.cut_of_execute env hOrder.timely
    c.startable c.timely s.deadline hEnding.symm
  · exact Or.inl hOvertaken
  · exact Or.inr ⟨rfl, timeout_eq_zero hNow, c, rfl, hWaits⟩

theorem InOrder.acts_spawn (hOrder : s.InOrder) (env : Surroundings) (task : String) (c : Command) :
    s.Acts env (.spawn task c) (s.act env (.spawn task c)).1 (s.act env (.spawn task c)).2.2 := by
  have hSpawned := hOrder.schedule.spawn env c.startable s.deadline
  have hStarted := Schedule.elapses_start env hOrder.timely c.program (some s.deadline)
  have hKeeps := Schedule.keeps_start env s.schedule c.program (some s.deadline)
  have hFair := Schedule.fair_start env s.schedule (some s.deadline) c.timely
  have hSettles := hOrder.schedule.start env c.startable (some s.deadline)
  rw [act]
  have hLater : s.schedule.nextAgent <
      (s.schedule.start env c.program (some s.deadline)).schedule.nextAgent :=
    hKeeps.nextAgent_eq.symm ▸ Nat.lt_succ_self _
  unfold Schedule.spawn at hSpawned ⊢
  cases hTurn : s.schedule.start env c.program (some s.deadline) with
  | ended e schedule =>
    rw [hTurn] at hSpawned hStarted hLater
    have hAct : s.Acts env (.spawn task c) { s with schedule }
        ([(s.schedule.nextAgent, e)] ++ []) := by
      refine hOrder.acts_of_elapses hSpawned hStarted
        (fun _ => ⟨hLater, e, List.mem_singleton_self _⟩) fun a hMem => ?_
      obtain ⟨rfl, rfl⟩ := Prod.mk.inj (List.mem_singleton.mp hMem)
      obtain ⟨hWaits, hDue⟩ := Schedule.waits_of_start env s.schedule c.timely hTurn
      exact Or.inr ⟨rfl, timeout_eq_zero (by simpa using hDue), c, rfl, hWaits⟩
    exact ⟨⟨hAct.inOrder.schedule, hAct.inOrder.timely, hAct.inOrder.named⟩, rfl, hAct.next_le,
      hAct.accounts, hAct.begun, hAct.waiters, hAct.cancelled⟩
  | waiting w schedule =>
    rw [hTurn] at hSpawned hStarted hKeeps hFair hSettles hLater
    obtain ⟨hAgent, hDeadline, hFrank⟩ := hFair
    have hWaits := Schedule.waits_of_waiting hTurn
    obtain ⟨-, -, -, -, -, hAhead⟩ := hSettles
    have hWaiters : ∀ {v}, v ∈ schedule.waiters ++ [w] → v ∈ s.schedule.waiters ∨ v = w := by
      intro v hv
      rw [← List.mem_singleton, ← List.mem_append]
      rwa [show schedule.waiters = s.schedule.waiters from hKeeps.waiters_eq] at hv
    refine ⟨⟨hSpawned, fun v hv => ?_, fun hName => ?_⟩, rfl, hStarted.next_le,
      fun v hv => Or.inl ?_, fun _ => ⟨hLater, Or.inl ?_⟩, fun v hv => ?_, fun a hCut => Or.inl ?_⟩
    · rcases hWaiters hv with hOld | rfl
      · exact hOrder.timely v hOld
      · exact hFrank
    · obtain ⟨hLt, hNot⟩ := hOrder.named hName
      refine ⟨Nat.lt_of_lt_of_le hLt hStarted.next_le, fun v hv => ?_⟩
      rcases hWaiters hv with hOld | rfl
      · exact hNot v hOld
      · rw [hAgent]
        exact Nat.ne_of_gt hLt
    · exact ⟨v, List.mem_append_left _ (hKeeps.waiters_eq.symm ▸ hv), rfl⟩
    · exact ⟨w, List.mem_append_right _ (List.mem_singleton_self w), hAgent⟩
    · rcases hWaiters hv with hOld | rfl
      · exact Or.inl ⟨v, hOld, rfl, rfl⟩
      · exact Or.inr ⟨⟨c, rfl, hWaits⟩, hAgent, hDeadline⟩
    · -- the new one has its deadline ahead
      obtain ⟨v, hv, hOwner, hDue⟩ := hCut.resolve_left (by rintro ⟨⟩)
      have hNow : schedule.ledger.now = s.schedule.ledger.now := hKeeps.now_eq
      rcases hWaiters hv with hOld | rfl
      · exact ⟨v, hOld, hOwner, hNow ▸ hDue⟩
      · exact absurd (hAhead.symm.trans hDue) (by simp)

/-- What becomes of a session by what a step does itself. -/
theorem InOrder.acts_act (hOrder : s.InOrder) (env : Surroundings) (x : SessionStep) :
    s.Acts env x (s.act env x).1 (s.ownEnding env (some s.deadline) x ++ (s.act env x).2.2) := by
  by_cases hByHand : x.IsByHand
  · have hNothing : s.ownEnding env (some s.deadline) x ++ (s.act env x).2.2 = [] := by
      cases x with
      | command | create | topup | transfer | spawn | advance => cases hByHand
      | total | lockOrder | drop =>
        rw [act]
        split <;> rfl
      | _ => rfl
    have hNone : x.command? = none := by
      cases x with
      | command | spawn => cases hByHand
      | _ => rfl
    rw [hNothing]
    exact (hOrder.steps_act env hByHand).acts hOrder hNone
  · cases x with
    | command c => exact hOrder.acts_command env c
    | create request => exact hOrder.acts_execute env (startable_creation request) rfl rfl
    | topup request => exact hOrder.acts_execute env (startable_toppingUp request) rfl rfl
    | transfer request => exact hOrder.acts_execute env (startable_transferring request) rfl rfl
    | spawn task c => exact hOrder.acts_spawn env task c
    | advance ms =>
      exact hOrder.acts_of_elapses (hOrder.schedule.moveClock _)
        (Schedule.elapses_moveClock hOrder.timely none _) (fun hSome => absurd rfl hSome)
        (by rintro _ ⟨⟩)
    | _ => exact absurd trivial hByHand

/-! ## Steps -/

/-- A session with what has been let run since, and the journal emptied. -/
def settledAt (s : Session) (schedule : Schedule) : Session :=
  { s with schedule := { schedule with ledger := { schedule.ledger with journal := [] } } }

theorem step_fst (env : Surroundings) (s : Session) (x : SessionStep) :
    (s.step env x).1 = (s.act env x).1.settledAt ((s.act env x).1.schedule.settle env).1 :=
  rfl

/-- What becomes of a session by a step that is taken when all is still. -/
theorem Still.acts_step (hStill : s.Still) (env : Surroundings) (x : SessionStep) :
    s.Acts env x (s.step env x).1 (s.endings env x) ∧ (s.step env x).1.Still := by
  have hActs := hStill.inOrder.acts_act env x
  have hPasses := Schedule.passes_settle env hActs.inOrder.timely
  obtain ⟨hOrder, hReady⟩ := hActs.inOrder.schedule.still env
  rw [step_fst, endings]
  generalize (s.act env x).1 = acted at *
  generalize acted.schedule.settle env = settled at *
  -- the journal is emptied
  have hInOrder : (acted.settledAt settled.1).InOrder := by
    refine ⟨hOrder.aside rfl rfl hOrder.ready_nodup hOrder.listed hOrder.ready_iff,
      hPasses.timely, fun hName => ?_⟩
    obtain ⟨hLt, hNot⟩ := hActs.inOrder.named hName
    refine ⟨Nat.lt_of_lt_of_eq hLt hPasses.nextAgent_eq.symm, fun w hw => ?_⟩
    obtain ⟨v, hv, hAgent, -⟩ := hPasses.follows w hw
    rw [← hAgent]
    exact hNot v hv
  have hNext : acted.schedule.nextAgent = settled.1.nextAgent := hPasses.nextAgent_eq.symm
  refine ⟨⟨hInOrder, hActs.timeout_eq, hActs.next_le.trans (Nat.le_of_eq hNext), ?_, fun hSome => ?_,
    fun w hw => ?_, fun a hCut => ?_⟩, hInOrder, hReady⟩
  · exact hActs.accounts.trans hPasses.accounts
  · obtain ⟨hLt, hBegun⟩ := hActs.begun hSome
    refine ⟨Nat.lt_of_lt_of_eq hLt hNext, ?_⟩
    rcases hBegun with ⟨w, hw, hAgent⟩ | ⟨e, hEnded⟩
    · rw [← hAgent]
      exact (hPasses.accounts w hw).imp_right fun ⟨e, hEnded⟩ =>
        ⟨e, List.mem_append_right _ hEnded⟩
    · exact Or.inr ⟨e, List.mem_append_left _ hEnded⟩
  · obtain ⟨v, hv, hAgent, hDeadline⟩ := hPasses.follows w hw
    rw [← hAgent, ← hDeadline]
    exact hActs.waiters v hv
  · refine hActs.cancelled a ?_
    rw [List.mem_append] at hCut
    rcases hCut with (hFirst | hLater) | hOverdue
    · exact Or.inl hFirst
    · exact Or.inr (hPasses.overdue a hLater)
    · exact Or.inr (hPasses.follows.overdue hPasses.now_eq hOverdue)

/-- All is still when a step moves the clock. -/
theorem Still.still_of_mem_ticks (hStill : s.Still) (hMem : t ∈ s.ticks env x) : t.Still := by
  cases x with
  | command c => exact hStill.inOrder.schedule.still_of_mem_ticksOf c.startable hMem
  | create request =>
    exact hStill.inOrder.schedule.still_of_mem_ticksOf (startable_creation request) hMem
  | topup request =>
    exact hStill.inOrder.schedule.still_of_mem_ticksOf (startable_toppingUp request) hMem
  | transfer request =>
    exact hStill.inOrder.schedule.still_of_mem_ticksOf (startable_transferring request) hMem
  | advance ms =>
    rw [List.mem_singleton.mp hMem]
    exact hStill.schedule
  | _ => cases hMem

/-- Those wait when a step moves the clock who have waited before, and the command that the step runs
in the foreground. -/
theorem Still.waiters_of_mem_ticks (hStill : s.Still) (hMem : t ∈ s.ticks env x)
    (hw : w ∈ t.waiters) :
    (∃ v ∈ s.schedule.waiters, v.agent = w.agent ∧ v.deadline = w.deadline) ∨
      t.foreground? = some w ∧ w.agent = s.schedule.nextAgent ∧
        (w.deadline = none ∨ s.HasToWait env x ∧ w.deadline = some s.deadline) := by
  have hTimely := hStill.inOrder.timely
  have hProgram : ∀ {p : Program Reply} {deadline : Option Instant}, p.Timely →
      t ∈ s.schedule.ticksOf env p deadline →
      (∃ v ∈ s.schedule.waiters, v.agent = w.agent ∧ v.deadline = w.deadline) ∨
        t.foreground? = some w ∧ w.agent = s.schedule.nextAgent ∧ w.deadline = deadline := by
    intro p deadline hFrank hTick
    obtain ⟨hFollows, v, hv, hAgent, hDeadline⟩ :=
      Schedule.waiters_of_mem_ticksOf env hTimely hFrank hTick
    rcases List.mem_append.mp hw with hFront | hBack
    · rw [hv] at hFront
      obtain rfl := List.mem_singleton.mp hFront
      exact Or.inr ⟨hv, hAgent, hDeadline⟩
    · exact Or.inl (hFollows w hBack)
  have hUntimed : ∀ {p : Program Reply}, p.Timely → t ∈ s.schedule.ticksOf env p none →
      (∃ v ∈ s.schedule.waiters, v.agent = w.agent ∧ v.deadline = w.deadline) ∨
        t.foreground? = some w ∧ w.agent = s.schedule.nextAgent ∧
          (w.deadline = none ∨ s.HasToWait env x ∧ w.deadline = some s.deadline) :=
    fun hFrank hTick => (hProgram hFrank hTick).imp_right fun ⟨hFront, hAgent, hNone⟩ =>
      ⟨hFront, hAgent, Or.inl hNone⟩
  cases x with
  | command c =>
    exact (hProgram c.timely hMem).imp_right fun ⟨hFront, hAgent, hSome⟩ =>
      ⟨hFront, hAgent, Or.inr ⟨⟨c, rfl, Schedule.waits_of_mem_ticksOf hMem⟩, hSome⟩⟩
  | create request => exact hUntimed (timely_creation request) hMem
  | topup request => exact hUntimed (timely_toppingUp request) hMem
  | transfer request => exact hUntimed (timely_transferring request) hMem
  | advance ms =>
    obtain rfl := List.mem_singleton.mp hMem
    exact Or.inl ⟨w, hw, rfl, rfl⟩
  | _ => cases hMem

end Session

end Purse
