import Purse.Proofs.Session.Moments

/-!
# Commands without their deadlines

A deadline that has not come makes no difference. A schedule in which an agent's command waits without
its deadline (`Schedule.spare`) goes the way of the schedule with it, turn by turn and as the clock is
moved, until the clock is moved past the deadline while the command still waits.

## Definitions

* `Waiter.spare`, `Schedule.spare`, `Session.spare`: without the deadline of an agent's command.
* `Session.actUntil`: a step with another deadline for the command that it starts.

## Results

* `spare_settle`, `spare_await`: letting commands run, and waiting, is the same without the deadline.
* `InOrder.spare_act`, `InOrder.spare_ownEnding`: so is a step of a session.
-/

namespace Purse

/-- A waiting command, without its deadline if it is the agent's. -/
def Waiter.spare (a : Agent) (w : Waiter) : Waiter :=
  { w with deadline := if w.agent = a then none else w.deadline }

/-- A schedule in which an agent's command waits without its deadline. -/
def Schedule.spare (a : Agent) (s : Schedule) : Schedule :=
  { s with waiters := s.waiters.map (Waiter.spare a) }

/-- A turn in which an agent's command waits without its deadline. -/
def Schedule.Turn.spare (a : Agent) : Schedule.Turn → Schedule.Turn
  | .ended e s => .ended e (s.spare a)
  | .waiting w s => .waiting (w.spare a) (s.spare a)

namespace Schedule

variable {env : Surroundings} {s : Schedule} {a b : Agent} {w : Waiter} {now instant : Instant}
  {p : Program Reply} {deadline : Option Instant}

theorem spare_of_ne (hNot : w.agent ≠ a) : w.spare a = w := by
  unfold Waiter.spare
  rw [if_neg hNot]

/-- A deadline that has not come makes no difference. -/
theorem isDue_spare (hAhead : w.agent = a → w.isDue now = false) :
    (w.spare a).isDue now = w.isDue now := by
  by_cases ha : w.agent = a
  · rw [hAhead ha]
    unfold Waiter.isDue Waiter.spare
    rw [if_pos ha]
    rfl
  · rw [spare_of_ne ha]

theorem ahead_of_not_overdue (hAhead : ¬ s.Overdue a) (hMem : w ∈ s.waiters) (ha : w.agent = a) :
    w.isDue s.ledger.now = false :=
  Bool.eq_false_iff.mpr fun hDue => hAhead ⟨w, hMem, ha, hDue⟩

-- ---------------------------------------------------------------------------
-- Turns
-- ---------------------------------------------------------------------------

theorem spare_turn (s : Schedule) (b : Agent) (deadline : Option Instant)
    {progress : Progress Reply}
    (hAhead : progress.Waits → b = a → deadline.any (· ≤ progress.ledger.now) = false) :
    (s.spare a).turn b (if b = a then none else deadline) progress =
      (s.turn b deadline progress).spare a := by
  cases progress with
  | ended | faulted => rfl
  | waiting c next row l woken =>
    unfold turn
    simp only
    by_cases hb : b = a
    · have hNot : Waiter.isDue ⟨b, c, next, row, deadline⟩ l.now = false := hAhead trivial hb
      rw [if_pos hb, hNot, if_neg (by simp [Waiter.isDue]), if_neg Bool.false_ne_true]
      simp only [Turn.spare, Waiter.spare, if_pos hb]
      rfl
    · rw [if_neg hb]
      split
      · rfl
      · simp only [Turn.spare, Waiter.spare, if_neg hb]
        rfl

theorem spare_poll (env : Surroundings) (s : Schedule)
    (hAhead : w.agent = a → w.isDue s.ledger.now = false) :
    (s.spare a).poll env (w.spare a) = (s.poll env w).spare a := by
  have hDue : (w.spare a).isDue (s.spare a).ledger.now = w.isDue s.ledger.now := isDue_spare hAhead
  have hSame : (s.spare a).isGranted (w.spare a) = s.isGranted w := rfl
  unfold poll
  rw [hDue, hSame]
  by_cases hGranted : s.isGranted w = true
  · rw [if_pos hGranted, if_pos hGranted]
    refine spare_turn s w.agent w.deadline fun _ ha => ?_
    rw [now_driveOn]
    exact hAhead ha
  · rw [if_neg hGranted, if_neg hGranted]
    split <;> rfl

theorem spare_replaceWaiter (ws : List Waiter) (b : Agent) (w? : Option Waiter) :
    replaceWaiter (ws.map (Waiter.spare a)) b (w?.map (Waiter.spare a)) =
      (replaceWaiter ws b w?).map (Waiter.spare a) := by
  unfold replaceWaiter
  rw [List.filterMap_map, List.map_filterMap]
  refine List.filterMap_congr fun w _ => ?_
  show (if w.agent = b then _ else _) = Option.map _ (if w.agent = b then _ else _)
  split <;> rfl

theorem spare_serve (env : Surroundings) (hAhead : ¬ s.Overdue a) (b : Agent) :
    (s.spare a).serve env b = ((s.serve env b).1.spare a, (s.serve env b).2) := by
  have hFind : (s.spare a).waiters.find? (·.agent = b) =
      (s.waiters.find? (·.agent = b)).map (Waiter.spare a) := List.find?_map
  unfold serve
  rw [hFind]
  cases hOld : s.waiters.find? (·.agent = b) with
  | none => rfl
  | some w =>
    have hPoll := spare_poll env s (ahead_of_not_overdue hAhead (List.mem_of_find?_eq_some hOld))
    simp only [Option.map_some, hPoll]
    cases s.poll env w with
    | ended e s' =>
      have hWaiters := spare_replaceWaiter (a := a) s'.waiters b none
      simp only [Turn.spare, spare]
      rw [← hWaiters]
      rfl
    | waiting w' s' =>
      have hWaiters := spare_replaceWaiter (a := a) s'.waiters b (some w')
      simp only [Turn.spare, spare]
      rw [← hWaiters]
      rfl

theorem spare_run (env : Surroundings) (hTimely : s.Timely) (hAhead : ¬ s.Overdue a)
    (turns : Nat) :
    run env turns (s.spare a) = ((run env turns s).1.spare a, (run env turns s).2) := by
  induction turns generalizing s with
  | zero => rfl
  | succ turns ih =>
    unfold run
    cases hReady : s.ready with
    | nil =>
      simp only [spare, hReady]
    | cons b rest =>
      have hRest : s.Passes { s with ready := rest } [] := .relist hTimely rest
      have hServed := hRest.trans (passes_serve env hRest.timely b)
      have hStill : ¬ (serve env { s with ready := rest } b).1.Overdue a :=
        mt (hServed.follows.overdue hServed.now_eq) hAhead
      have hServe := spare_serve env (s := { s with ready := rest }) (a := a)
        (mt (hRest.follows.overdue hRest.now_eq) hAhead) b
      have hReady' : (s.spare a).ready = b :: rest := hReady
      have hSame : ({ s.spare a with ready := rest } : Schedule) =
        spare a { s with ready := rest } := rfl
      simp only [hReady', hSame, hServe, ih hServed.timely hStill]

/-- Commands run on as they do without the deadline of one of them that has not come. -/
theorem spare_settle (env : Surroundings) (hTimely : s.Timely) (hAhead : ¬ s.Overdue a) :
    (s.spare a).settle env = ((s.settle env).1.spare a, (s.settle env).2) := by
  have hTurns : (s.spare a).turnsLeft = s.turnsLeft := by
    unfold turnsLeft spare
    rw [List.length_map]
  unfold settle
  rw [hTurns]
  exact spare_run env hTimely hAhead _

-- ---------------------------------------------------------------------------
-- The clock
-- ---------------------------------------------------------------------------

theorem spare_due (hAhead : ¬ s.Overdue a) : (s.spare a).due = s.due := by
  have hFilter : (s.waiters.map (Waiter.spare a)).filter (·.isDue s.ledger.now) =
      s.waiters.filter (·.isDue s.ledger.now) := by
    rw [List.filter_map]
    have hSame : s.waiters.filter ((fun w : Waiter => w.isDue s.ledger.now) ∘ Waiter.spare a) =
        s.waiters.filter (·.isDue s.ledger.now) :=
      List.filter_congr fun w hw => isDue_spare (ahead_of_not_overdue hAhead hw)
    rw [hSame]
    -- those whose deadline has come are not the agent's
    refine (List.map_congr_left fun w hw => spare_of_ne ?_).trans (List.map_id _)
    rintro rfl
    obtain ⟨hMem, hDue⟩ := List.mem_filter.mp hw
    exact hAhead ⟨w, hMem, rfl, hDue⟩
  unfold due
  show (((s.waiters.map (Waiter.spare a)).filter (·.isDue s.ledger.now)).mergeSort _).map _ = _
  rw [hFilter]

theorem spare_moveClock (hAhead : ¬ (s.moveClock instant).Overdue a) :
    (s.spare a).moveClock instant = (s.moveClock instant).spare a := by
  have hDue := spare_due (s := { s with ledger.now := max s.ledger.now instant }) (a := a) hAhead
  unfold moveClock
  show wake _ _ (due (spare a { s with ledger.now := max s.ledger.now instant })) = _
  rw [hDue]
  rfl

theorem spare_nextDeadline (hAhead : ∀ instant, s.nextDeadline? w = some instant →
      ∀ v ∈ w :: s.waiters, v.agent = a → v.isDue instant = false) :
    (s.spare a).nextDeadline? (w.spare a) = s.nextDeadline? w := by
  have hSpared : (s.spare a).nextDeadline? (w.spare a) =
      ((w :: s.waiters).filterMap fun v => (v.spare a).deadline).min? := by
    unfold nextDeadline? spare
    rw [← List.map_cons, List.filterMap_map]
    rfl
  rw [hSpared]
  cases hNext : s.nextDeadline? w with
  | none =>
    have hNever := List.filterMap_eq_nil_iff.mp (List.min?_eq_none_iff.mp hNext)
    refine List.min?_eq_none_iff.mpr (List.filterMap_eq_nil_iff.mpr fun v hv => ?_)
    show (if v.agent = a then none else v.deadline) = none
    rw [hNever v hv, ite_self]
  | some instant =>
    obtain ⟨hMem, hLeast⟩ := List.min?_eq_some_iff.mp hNext
    refine List.min?_eq_some_iff.mpr ⟨?_, fun other hOther => hLeast other ?_⟩
    · obtain ⟨v, hv, hDeadline⟩ := List.mem_filterMap.mp hMem
      refine List.mem_filterMap.mpr ⟨v, hv, ?_⟩
      have hNot : v.agent ≠ a := by
        intro ha
        have hDue := hAhead instant hNext v hv ha
        simp [Waiter.isDue, hDeadline] at hDue
      rw [spare_of_ne hNot]
      exact hDeadline
    · obtain ⟨v, hv, hDeadline⟩ := List.mem_filterMap.mp hOther
      refine List.mem_filterMap.mpr ⟨v, hv, ?_⟩
      unfold Waiter.spare at hDeadline
      simp only at hDeadline
      split at hDeadline
      · cases hDeadline
      · exact hDeadline

/-- A command in the foreground that the clock is not moved past has its deadline ahead. -/
theorem ahead_movedFor (hWaiter : w.agent = a → w.isDue s.ledger.now = false)
    (hTick : ∀ t ∈ s.tickFor w, ¬ t.Overtakes a) :
    w.agent = a → w.isDue (s.movedFor w).ledger.now = false := by
  intro ha
  obtain ⟨hSame, -, -⟩ | ⟨instant, -, -, hMoved, hTicks⟩ := s.movedFor_cases w
  · rw [hSame]
    exact hWaiter ha
  · rw [hMoved]
    refine Bool.eq_false_iff.mpr fun hDue => ?_
    rcases isDue_max hDue with hNow | hThen
    · exact absurd ((hWaiter ha).symm.trans hNow) Bool.false_ne_true
    · refine hTick ⟨s, some w, instant⟩ ?_ ⟨w, List.mem_cons_self, ha, hWaiter ha, hThen⟩
      rw [hTicks]
      exact List.mem_singleton_self _

theorem spare_movedFor (hAhead : ¬ s.Overdue a) (hWaiter : w.agent = a → w.isDue s.ledger.now = false)
    (hTick : ∀ t ∈ s.tickFor w, ¬ t.Overtakes a) :
    (s.spare a).movedFor (w.spare a) = (s.movedFor w).spare a := by
  have hSame : (s.spare a).isGranted (w.spare a) = s.isGranted w := rfl
  unfold movedFor
  rw [hSame]
  cases hGranted : s.isGranted w with
  | true => rfl
  | false =>
    -- whoever has its deadline ahead has it ahead at the next one, too
    have hLater : ∀ instant, s.nextDeadline? w = some instant →
        ∀ v ∈ w :: s.waiters, v.agent = a → v.isDue instant = false := by
      intro instant hNext v hv ha
      refine Bool.eq_false_iff.mpr fun hDue => hTick ⟨s, some w, instant⟩ ?_ ⟨v, hv, ha, ?_, hDue⟩
      · exact mem_tickFor.mpr ⟨hGranted, instant, hNext, rfl⟩
      · rcases List.mem_cons.mp hv with rfl | hOther
        · exact hWaiter ha
        · exact ahead_of_not_overdue hAhead hOther ha
    rw [spare_nextDeadline hLater]
    cases hNext : s.nextDeadline? w with
    | none => rfl
    | some instant =>
      refine spare_moveClock ?_
      rintro ⟨v, hv, ha, hDue⟩
      rcases isDue_max hDue with hNow | hThen
      · exact hAhead ⟨v, hv, ha, hNow⟩
      · exact absurd ((hLater instant hNext v (List.mem_cons_of_mem _ hv) ha).symm.trans hThen)
          Bool.false_ne_true

/-- Waiting for a command is the same without a deadline that the clock is not moved past. -/
theorem spare_await (env : Surroundings) (hTimely : s.Timely) (hFrank : w.Timely)
    (hAhead : ¬ s.Overdue a) (hWaiter : w.agent = a → w.isDue s.ledger.now = false) {moves : Nat}
    (hTicks : ∀ t ∈ Schedule.ticks env moves s w, ¬ t.Overtakes a) :
    await env moves (s.spare a) (w.spare a) =
      ((await env moves s w).1.spare a, (await env moves s w).2) := by
  induction moves generalizing s w with
  | zero => rfl
  | succ moves ih =>
    have hSettled := passes_settle env hTimely
    have hNow : ¬ (s.settle env).1.Overdue a := mt (hSettled.follows.overdue hSettled.now_eq) hAhead
    have hStill : w.agent = a → w.isDue (s.settle env).1.ledger.now = false := by
      rw [hSettled.now_eq]
      exact hWaiter
    have hTick : ∀ t ∈ (s.settle env).1.tickFor w, ¬ t.Overtakes a :=
      fun t ht => hTicks t (List.mem_append_left _ ht)
    have hMoved := elapses_movedFor hSettled.timely w
    have hMovedAhead : ¬ ((s.settle env).1.movedFor w).Overdue a := by
      intro hOverdue
      rcases hMoved.overdue a (Or.inr hOverdue) with hBefore | ⟨t, ht, hOvertakes⟩
      · exact hNow hBefore
      · exact hTick t ht hOvertakes
    have hWaits : w.agent = a → w.isDue ((s.settle env).1.movedFor w).ledger.now = false :=
      ahead_movedFor hStill hTick
    have hPoll := spare_poll env ((s.settle env).1.movedFor w) hWaits
    have hKeeps := keeps_poll env ((s.settle env).1.movedFor w) w
    have hFair := fair_poll env ((s.settle env).1.movedFor w) hFrank
    have hThen : ∀ t ∈ (match ((s.settle env).1.movedFor w).poll env w with
        | .ended _ _ => []
        | .waiting w s => Schedule.ticks env moves s w), ¬ t.Overtakes a :=
      fun t ht => hTicks t (List.mem_append_right _ ht)
    rw [await_succ, await_succ, spare_settle env hTimely hAhead,
      spare_movedFor hNow hStill hTick, hPoll]
    cases hTurn : ((s.settle env).1.movedFor w).poll env w with
    | ended e s' => rfl
    | waiting w' s' =>
      rw [hTurn] at hKeeps hFair hThen
      have hPassed := hKeeps.passes hMoved.timely
      obtain ⟨hAgent, hDeadline, hFrank'⟩ := hFair
      have hRest : await env moves (s'.spare a) (w'.spare a) =
          ((await env moves s' w').1.spare a, (await env moves s' w').2) := by
        refine ih hPassed.timely hFrank'
          (mt (hPassed.follows.overdue hPassed.now_eq) hMovedAhead) (fun ha => ?_) hThen
        rw [Waiter.isDue, hDeadline, show s'.ledger.now = _ from hPassed.now_eq]
        exact hWaits (hAgent.symm.trans ha)
      simp only [Turn.spare, hRest]

/-- To start a command without its deadline is the same if it need not wait, or has its deadline
ahead. -/
theorem spare_start (env : Surroundings) (s : Schedule) (p : Program Reply)
    (deadline : Option Instant)
    (hAhead : (s.ledger.drive env s.nextAgent p []).Waits → s.nextAgent = a →
      deadline.any (· ≤ s.ledger.now) = false) :
    (s.spare a).start env p (if s.nextAgent = a then none else deadline) =
      (s.start env p deadline).spare a := by
  refine spare_turn { s with nextAgent := s.nextAgent + 1 } s.nextAgent deadline fun hWaits ha => ?_
  rw [now_drive]
  exact hAhead hWaits ha

theorem spare_execute (env : Surroundings) (hTimely : s.Timely) (hFrank : p.Timely)
    (hAhead : ¬ s.Overdue a)
    (hStart : (s.ledger.drive env s.nextAgent p []).Waits → s.nextAgent = a →
      deadline.any (· ≤ s.ledger.now) = false)
    (hTicks : ∀ t ∈ s.ticksOf env p deadline, ¬ t.Overtakes a) :
    (s.spare a).execute env p (if s.nextAgent = a then none else deadline) =
      ((s.execute env p deadline).1.spare a, (s.execute env p deadline).2) := by
  have hStarted := elapses_start env hTimely p deadline
  have hKeeps := keeps_start env s p deadline
  have hFair := fair_start env s deadline hFrank
  unfold ticksOf at hTicks
  unfold execute
  rw [spare_start env s p deadline hStart]
  cases hTurn : s.start env p deadline with
  | ended e s' => rfl
  | waiting w s' =>
    rw [hTurn] at hStarted hKeeps hFair hTicks
    obtain ⟨hAgent, hDeadline, hFrank'⟩ := hFair
    have hNotOverdue : ¬ s'.Overdue a := fun hOverdue =>
      (hStarted.overdue a (Or.inr hOverdue)).elim hAhead (by rintro ⟨_, ⟨⟩, _⟩)
    have hWaiter : w.agent = a → w.isDue s'.ledger.now = false := by
      intro ha
      rw [Waiter.isDue, hDeadline, show s'.ledger.now = s.ledger.now from hKeeps.now_eq]
      exact hStart (waits_of_waiting hTurn) (hAgent.symm.trans ha)
    have hMoves : (s'.spare a).waiters.length = s'.waiters.length := List.length_map _
    simp only [Turn.spare, hMoves]
    exact spare_await (s := s') env hStarted.timely hFrank' hNotOverdue hWaiter hTicks

end Schedule

/-- A session in which an agent's command waits without its deadline. -/
def Session.spare (a : Agent) (s : Session) : Session := { s with schedule := s.schedule.spare a }

namespace Session

variable {env : Surroundings} {s : Session} {a b : Agent} {x : SessionStep}

-- ---------------------------------------------------------------------------
-- By hand
-- ---------------------------------------------------------------------------

theorem spare_byHand (env : Surroundings) (s : Session) (b : Agent) (c : Call) :
    (s.spare a).byHand env b c = ((s.byHand env b c).1.spare a, (s.byHand env b c).2) := by
  have hLedger : (s.spare a).schedule.ledger = s.schedule.ledger := rfl
  unfold byHand
  rw [hLedger]
  cases s.schedule.ledger.execute env b c <;> rfl

theorem spare_within (env : Surroundings) (s : Session) (name : String) (c : Call) :
    (s.spare a).within env name c = ((s.within env name c).1.spare a, (s.within env name c).2) := by
  have hNames : (s.spare a).transactions = s.transactions := rfl
  unfold within
  rw [hNames]
  cases s.transactions.get? name with
  | none => rfl
  | some b => exact spare_byHand env s b c

theorem spare_closed (env : Surroundings) (s : Session) (name : String) (c : Call) :
    closed name ((s.spare a).within env name c) =
      ((closed name (s.within env name c)).1.spare a, (closed name (s.within env name c)).2) := by
  rw [spare_within]
  rfl

theorem spare_dropNamed (s : Session) (name : String) :
    (s.spare a).dropNamed name = (s.dropNamed name).spare a := by
  have hNames : (s.spare a).transactions = s.transactions := rfl
  unfold dropNamed
  rw [hNames]
  cases s.transactions.get? name <;> rfl

theorem spare_finishNamed (env : Surroundings) (s : Session) (name : String)
    (outcome : Result Unit) :
    (s.spare a).finishNamed env name outcome =
      ((s.finishNamed env name outcome).1.spare a, (s.finishNamed env name outcome).2) := by
  have hNames : (s.spare a).transactions = s.transactions := rfl
  have hLedger : (s.spare a).schedule.ledger = s.schedule.ledger := rfl
  unfold finishNamed
  rw [hNames]
  cases s.transactions.get? name with
  | none => rfl
  | some b =>
    simp only [hLedger]
    cases s.schedule.ledger.drive env b (finish outcome) [] with
    | ended r l woken => cases r <;> rfl
    | waiting | faulted => rfl

/-- What is done by hand asks for no deadline. -/
theorem spare_act_byHand (env : Surroundings) (s : Session) (hByHand : x.IsByHand) :
    (s.spare a).act env x = ((s.act env x).1.spare a, (s.act env x).2) := by
  cases x with
  | command | create | topup | transfer | spawn | advance => cases hByHand
  | insert | claim => exact congrArg act.still (spare_byHand env s _ _)
  | get wallet => exact congrArg act.still (spare_byHand env s s.schedule.nextAgent (.get wallet))
  | list user => exact congrArg act.still (spare_byHand env s s.schedule.nextAgent (.list user))
  | release key =>
    exact congrArg act.still (spare_byHand env s s.schedule.nextAgent (.release key))
  | add wallet amount => exact congrArg act.still (spare_byHand env s.newAgent.2 _ _)
  | lock | addWithin => exact congrArg act.still (spare_within env s _ _)
  | commit | rollback => exact congrArg act.still (spare_closed env s _ _)
  | begin name =>
    rw [act, act, spare_dropNamed]
    rfl
  | drop name =>
    have hNames : (s.spare a).transactions = s.transactions := rfl
    rw [act, act, spare_dropNamed, hNames]
    split <;> rfl
  | finish name outcome => exact congrArg act.still (spare_finishNamed env s name outcome)
  | total =>
    have hLedger : (s.spare a).schedule.ledger = s.schedule.ledger := rfl
    rw [act, act, hLedger]
    split <;> rfl
  | lockOrder name =>
    have hNames : (s.spare a).transactions = s.transactions := rfl
    rw [act, act, hNames]
    split <;> rfl
  | size | keysSize | failUpdates | purge | fail => rfl

-- ---------------------------------------------------------------------------
-- Steps
-- ---------------------------------------------------------------------------

/-- Does a step as `act` does, with another deadline for the command that it starts. -/
def actUntil (env : Surroundings) (s : Session) (deadline : Option Instant) :
    SessionStep → Session × Answer × List (Agent × Ending)
  | .command c => s.foreground env c.program deadline
  | .spawn task c =>
    let tasks := s.tasks.put s.schedule.nextAgent task
    match s.schedule.start env c.program deadline with
    | .ended e schedule => ({ s with schedule, tasks }, .unit, [(s.schedule.nextAgent, e)])
    | .waiting w schedule =>
      ({ s with schedule := { schedule with waiters := schedule.waiters ++ [w] }, tasks }, .unit, [])
  | x => s.act env x

theorem actUntil_deadline (env : Surroundings) (s : Session) (x : SessionStep) :
    s.actUntil env (some s.deadline) x = s.act env x := by
  cases x with
  | spawn task c =>
    unfold actUntil act Schedule.spawn
    simp only
    cases s.schedule.start env c.program (some s.deadline) <;> rfl
  | _ => rfl

/-- A command that is not started with no time at all, if it has to wait, has its deadline ahead. -/
theorem ahead_of_hasToWait {c : Command} (hCommand : x.command? = some c)
    (hStart : s.HasToWait env x → s.schedule.nextAgent = a → s.timeout ≠ 0)
    (hWaits : (s.schedule.ledger.drive env s.schedule.nextAgent c.program []).Waits)
    (ha : s.schedule.nextAgent = a) :
    (some s.deadline : Option Instant).any (· ≤ s.schedule.ledger.now) = false := by
  simpa [deadline] using hStart ⟨c, hCommand, hWaits⟩ ha

/-- What a step does itself is the same without the deadline of a command that is not overtaken by it,
be it one that waits or the one that the step starts. -/
theorem InOrder.spare_act (hOrder : s.InOrder) (env : Surroundings)
    (hAhead : ¬ s.schedule.Overdue a) (hTicks : ∀ t ∈ s.ticks env x, ¬ t.Overtakes a)
    (hStart : s.HasToWait env x → s.schedule.nextAgent = a → s.timeout ≠ 0) :
    (s.spare a).actUntil env (if s.schedule.nextAgent = a then none else some s.deadline) x =
      ((s.act env x).1.spare a, (s.act env x).2) := by
  have hUntimed : ∀ {p : Program Reply}, p.Timely →
      (∀ t ∈ s.schedule.ticksOf env p none, ¬ t.Overtakes a) →
      (s.spare a).foreground env p none =
        ((s.foreground env p none).1.spare a, (s.foreground env p none).2) := by
    intro p hFrank hNot
    have hExecuted := Schedule.spare_execute env hOrder.timely hFrank hAhead (fun _ _ => rfl) hNot
    rw [ite_self] at hExecuted
    simp only [foreground, spare, hExecuted]
  by_cases hByHand : x.IsByHand
  · have hSame : ∀ s : Session, ∀ deadline, s.actUntil env deadline x = s.act env x := by
      intro s deadline
      cases x with
      | command | spawn => cases hByHand
      | _ => rfl
    rw [hSame]
    exact spare_act_byHand env s hByHand
  · cases x with
    | command c =>
      have hExecuted := Schedule.spare_execute env hOrder.timely c.timely hAhead
        (ahead_of_hasToWait rfl hStart) hTicks
      simp only [actUntil, act, foreground, spare, hExecuted]
    | create request => exact hUntimed (timely_creation request) hTicks
    | topup request => exact hUntimed (timely_toppingUp request) hTicks
    | transfer request => exact hUntimed (timely_transferring request) hTicks
    | spawn task c =>
      have hStarted := Schedule.spare_start env s.schedule c.program _ (ahead_of_hasToWait rfl hStart)
      have hNext : (s.schedule.spare a).nextAgent = s.schedule.nextAgent := rfl
      rw [← actUntil_deadline]
      simp only [actUntil, spare, hStarted, hNext]
      cases s.schedule.start env c.program (some s.deadline) with
      | ended e schedule => rfl
      | waiting w schedule =>
        simp only [Schedule.Turn.spare, Schedule.spare, List.map_append, List.map_cons, List.map_nil]
    | advance ms =>
      have hMoved : ¬ (s.schedule.moveClock (s.schedule.ledger.now + ms)).Overdue a := by
        intro hOverdue
        have hElapses := Schedule.elapses_moveClock hOrder.timely none (s.schedule.ledger.now + ms)
        rcases hElapses.overdue a (Or.inr hOverdue) with hBefore | ⟨t, ht, hOvertakes⟩
        · exact hAhead hBefore
        · exact hTicks t ht hOvertakes
      have hSame := Schedule.spare_moveClock hMoved
      have hLedger : (s.schedule.spare a).ledger = s.schedule.ledger := rfl
      simp only [actUntil, act, spare, hLedger, hSame]
    | _ => exact absurd trivial hByHand

/-- So is the ending of a command that it runs in the foreground. -/
theorem InOrder.spare_ownEnding (hOrder : s.InOrder) (env : Surroundings)
    (hAhead : ¬ s.schedule.Overdue a) (hTicks : ∀ t ∈ s.ticks env x, ¬ t.Overtakes a)
    (hStart : s.HasToWait env x → s.schedule.nextAgent = a → s.timeout ≠ 0) :
    (s.spare a).ownEnding env (if s.schedule.nextAgent = a then none else some s.deadline) x =
      s.ownEnding env (some s.deadline) x := by
  cases x with
  | command c =>
    have hExecuted := Schedule.spare_execute env hOrder.timely c.timely hAhead
      (ahead_of_hasToWait rfl hStart) hTicks
    have hNext : (s.schedule.spare a).nextAgent = s.schedule.nextAgent := rfl
    simp only [ownEnding, spare, hNext, hExecuted]
  | _ => rfl

end Session

end Purse
