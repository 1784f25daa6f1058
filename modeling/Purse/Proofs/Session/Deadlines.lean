import Mathlib.Data.List.Induction
import Purse.Proofs.Crowd.TransferVerdict
import Purse.Proofs.Session.Spared

/-!
# What deadlines do

A deadline cuts a command that waits for a row, and does nothing else. Whenever all is still, between
two steps or when the clock is about to be moved, each command that waits is blocked by somebody else's
transaction with its deadline ahead. A command is cancelled only if it still waited when the clock
reached its deadline, or if it was given no time and had to wait. Otherwise all goes as it would if the
command had no deadline.

## Definitions

* `Session.play`: what is reported of some steps, and the commands that end.
* `Session.HasUntil`: an agent's command was started by one of the steps, and has time until an instant.
* `Session.CutShort`: a command that a step starts still waits when its deadline comes.
* `Session.stepUntil`, `Session.playFreely`: steps of which the first starts its command without a
  deadline.

## Results

* `Still.overtakes_of_mem_play`: whoever is cancelled meanwhile was overtaken.
* `Still.spare_play`: without a deadline that nothing overtakes all goes the same way.
* `deadlines_cut_waiting_only`: what the deadlines of a session's commands do.
* `blocked_or_released`: a payment that is cut short, and one that is not.
-/

namespace Purse

namespace Session

variable {env : Surroundings} {s s₀ : Session} {a : Agent} {x : SessionStep} {w v : Waiter} {t : Tick}
  {later steps : List SessionStep}

-- ---------------------------------------------------------------------------
-- Steps in a row
-- ---------------------------------------------------------------------------

/-- What is reported of some steps, each with the commands that end by it. -/
def play (env : Surroundings) : Session → List SessionStep → List (Report × List (Agent × Ending))
  | _, [] => []
  | s, x :: later => ((s.step env x).2, s.endings env x) :: play env (s.step env x).1 later

/-- The commands that end by some steps. -/
def endingsOver (env : Surroundings) (s : Session) (steps : List SessionStep) :
    List (Agent × Ending) :=
  (s.play env steps).flatMap Prod.snd

/-- A command in the foreground is answered as it ends. -/
theorem answered_as_ended (env : Surroundings) (s : Session) (c : Command) :
    ∃ e, (s.schedule.nextAgent, e) ∈ s.endings env (.command c) ∧
      (s.step env (.command c)).2.answer = .ofEnding e :=
  ⟨_, List.mem_append_left _ (List.mem_append_left _ (List.mem_singleton_self _)), rfl⟩

/-- A task is reported as its command ends. -/
theorem reported_as_ended {task : String} {e : Ending} (hEnded : (task, e) ∈ (s.step env x).2.ended) :
    ∃ a, (s.act env x).1.tasks.get? a = some task ∧ (a, e) ∈ s.endings env x := by
  obtain ⟨⟨a, e'⟩, hMem, hTask⟩ := List.mem_filterMap.mp hEnded
  obtain ⟨task', hName, hSame⟩ := Option.map_eq_some_iff.mp hTask
  obtain ⟨rfl, rfl⟩ := Prod.mk.inj hSame
  refine ⟨a, hName, ?_⟩
  rw [endings, List.append_assoc]
  exact List.mem_append_right _ hMem

theorem mem_endingsOver_cons {ended : Agent × Ending} :
    ended ∈ s.endingsOver env (x :: later) ↔
      ended ∈ s.endings env x ∨ ended ∈ (s.step env x).1.endingsOver env later := by
  unfold endingsOver
  rw [play, List.flatMap_cons, List.mem_append]

theorem after_append (env : Surroundings) (s : Session) (before later : List SessionStep) :
    s.after env (before ++ later) = (s.after env before).after env later :=
  List.foldl_append

/-- All stays still between steps. -/
theorem Still.after (hStill : s.Still) (env : Surroundings) (steps : List SessionStep) :
    (s.after env steps).Still := by
  induction steps generalizing s with
  | nil => exact hStill
  | cons x later ih => exact ih (hStill.acts_step env x).2

theorem Still.timeout_after (hStill : s.Still) (env : Surroundings) (steps : List SessionStep) :
    (s.after env steps).timeout = s.timeout := by
  induction steps generalizing s with
  | nil => rfl
  | cons x later ih =>
    obtain ⟨hActs, hNext⟩ := hStill.acts_step env x
    exact (ih hNext).trans hActs.timeout_eq

/-- Those who have waited wait on after some steps, or have ended. -/
theorem Still.accounts (hStill : s.Still) (env : Surroundings) (steps : List SessionStep) :
    s.schedule.Accounts (s.after env steps).schedule (s.endingsOver env steps) := by
  induction steps generalizing s with
  | nil => exact .of_waiters_eq rfl _
  | cons x later ih =>
    obtain ⟨hActs, hNext⟩ := hStill.acts_step env x
    exact hActs.accounts.trans (ih hNext)

/-- A command that a step starts has ended after some more steps, or waits. -/
theorem Still.ends_or_waits (hStill : s.Still) (env : Surroundings) (hSome : x.command? ≠ none)
    (later : List SessionStep) :
    (∃ e, (s.schedule.nextAgent, e) ∈ s.endingsOver env (x :: later)) ∨
      ∃ w ∈ (s.after env (x :: later)).schedule.waiters, w.agent = s.schedule.nextAgent := by
  obtain ⟨hActs, hNext⟩ := hStill.acts_step env x
  obtain ⟨-, ⟨w, hw, hAgent⟩ | ⟨e, hEnded⟩⟩ := hActs.begun hSome
  · rw [← hAgent]
    rcases hNext.accounts env later w hw with hWaits | ⟨e, hEnded⟩
    · exact Or.inr hWaits
    · exact Or.inl ⟨e, mem_endingsOver_cons.mpr (Or.inr hEnded)⟩
  · exact Or.inl ⟨e, mem_endingsOver_cons.mpr (Or.inl hEnded)⟩

-- ---------------------------------------------------------------------------
-- Deadlines
-- ---------------------------------------------------------------------------

/-- An agent's command was started by one of the steps under the time limit, and has time until an
instant. -/
def HasUntil (env : Surroundings) (s₀ : Session) (steps : List SessionStep) (a : Agent)
    (instant : Instant) : Prop :=
  ∃ before x c later, steps = before ++ x :: later ∧ x.command? = some c ∧
    a = (s₀.after env before).schedule.nextAgent ∧
    instant = (s₀.after env before).schedule.ledger.now + s₀.timeout

theorem HasUntil.append {instant : Instant} (hHas : s₀.HasUntil env steps a instant)
    (more : List SessionStep) : s₀.HasUntil env (steps ++ more) a instant := by
  obtain ⟨before, x, c, later, rfl, hRest⟩ := hHas
  exact ⟨before, x, c, later ++ more, by simp, hRest⟩

theorem Still.hasUntil_last (hStill : s₀.Still) (hWaits : (s₀.after env steps).HasToWait env x) :
    s₀.HasUntil env (steps ++ [x]) (s₀.after env steps).schedule.nextAgent
      (s₀.after env steps).deadline := by
  obtain ⟨c, hCommand, -⟩ := hWaits
  refine ⟨steps, x, c, [], rfl, hCommand, rfl, ?_⟩
  rw [deadline, hStill.timeout_after env steps]

/-- Whoever waits has its time from the step that has started it. -/
theorem Still.hasUntil (hStill : s₀.Still) (hNone : s₀.schedule.waiters = [])
    (hMem : w ∈ (s₀.after env steps).schedule.waiters) :
    ∃ instant, w.deadline = some instant ∧ s₀.HasUntil env steps w.agent instant := by
  induction steps using List.reverseRecOn generalizing w with
  | nil =>
    rw [Session.after, List.foldl_nil, hNone] at hMem
    cases hMem
  | append_singleton steps x ih =>
    rw [after_append] at hMem
    have hActs := ((hStill.after env steps).acts_step env x).1
    obtain ⟨v, hv, hAgent, hDeadline⟩ | ⟨hWaits, hAgent, hDeadline⟩ := hActs.waiters w hMem
    · obtain ⟨instant, hSome, hHas⟩ := ih hv
      rw [← hAgent, ← hDeadline]
      exact ⟨instant, hSome, hHas.append [x]⟩
    · rw [hAgent]
      exact ⟨_, hDeadline, hStill.hasUntil_last hWaits⟩

/-- What is so of the deadline of an agent's command stays so when the clock is moved. -/
theorem Still.deadline_of_mem_ticksOver {P : Option Instant → Prop} (hStill : s.Still)
    (hOld : a < s.schedule.nextAgent) (hHolds : ∀ w ∈ s.schedule.waiters, w.agent = a → P w.deadline)
    (hTick : t ∈ s.ticksOver env later) (hMem : w ∈ t.waiters) (hAgent : w.agent = a) :
    P w.deadline := by
  induction later generalizing s with
  | nil => cases hTick
  | cons x later ih =>
    obtain ⟨hActs, hNext⟩ := hStill.acts_step env x
    rcases List.mem_append.mp hTick with hNow | hThen
    · obtain ⟨v, hv, hSame, hDeadline⟩ | ⟨-, hNew, -⟩ := hStill.waiters_of_mem_ticks hNow hMem
      · rw [← hDeadline]
        exact hHolds v hv (hSame.trans hAgent)
      · exact absurd (hAgent.symm.trans hNew) (Nat.ne_of_lt hOld)
    · refine ih hNext (Nat.lt_of_lt_of_le hOld hActs.next_le) (fun u hu ha => ?_) hThen
      obtain ⟨v, hv, hSame, hDeadline⟩ | ⟨-, hNew, -⟩ := hActs.waiters u hu
      · rw [← hDeadline]
        exact hHolds v hv (hSame.trans ha)
      · exact absurd (ha.symm.trans hNew) (Nat.ne_of_lt hOld)

/-- A command that a step starts waits with its own deadline when the clock is moved. -/
theorem Still.own_deadline (hStill : s.Still) (hSome : x.command? ≠ none)
    (hTick : t ∈ s.ticksOver env (x :: later)) (hMem : w ∈ t.waiters)
    (hAgent : w.agent = s.schedule.nextAgent) :
    w.deadline = none ∨ s.HasToWait env x ∧ w.deadline = some s.deadline := by
  have hNot : ∀ v ∈ s.schedule.waiters, v.agent ≠ s.schedule.nextAgent :=
    fun v hv => Nat.ne_of_lt (hStill.schedule.inOrder.old v hv)
  obtain ⟨hActs, hNext⟩ := hStill.acts_step env x
  rcases List.mem_append.mp hTick with hNow | hThen
  · obtain ⟨v, hv, hSame, -⟩ | ⟨-, -, hDeadline⟩ := hStill.waiters_of_mem_ticks hNow hMem
    · exact absurd (hSame.trans hAgent) (hNot v hv)
    · exact hDeadline
  · refine Or.inr (hNext.deadline_of_mem_ticksOver
      (P := fun deadline => s.HasToWait env x ∧ deadline = some s.deadline)
      (hActs.begun hSome).1 (fun u hu ha => ?_) hThen hMem hAgent)
    obtain ⟨v, hv, hSame, -⟩ | ⟨hWaits, -, hDeadline⟩ := hActs.waiters u hu
    · exact absurd (hSame.trans ha) (hNot v hv)
    · exact ⟨hWaits, hDeadline⟩

-- ---------------------------------------------------------------------------
-- Who is cancelled
-- ---------------------------------------------------------------------------

/-- A command that a step starts under the time limit has to wait for a row, and still waits when the
clock comes to its deadline, be it at once. -/
def CutShort (env : Surroundings) (s : Session) (x : SessionStep) (later : List SessionStep) : Prop :=
  s.HasToWait env x ∧ (s.timeout = 0 ∨ ∃ t ∈ s.ticksOver env (x :: later),
    t.schedule.ledger.now < s.deadline ∧ s.deadline ≤ t.instant ∧
      ∃ w ∈ t.waiters, w.agent = s.schedule.nextAgent)

theorem Still.cutShort_of_overtakes (hStill : s.Still) (hSome : x.command? ≠ none)
    (hTick : t ∈ s.ticksOver env (x :: later)) (hOvertakes : t.Overtakes s.schedule.nextAgent) :
    s.CutShort env x later := by
  obtain ⟨w, hw, hAgent, hAhead, hDue⟩ := hOvertakes
  obtain hNone | ⟨hWaits, hDeadline⟩ := hStill.own_deadline hSome hTick hw hAgent
  · simp [Waiter.isDue, hNone] at hDue
  · simp only [Waiter.isDue, hDeadline, Option.any_some, decide_eq_true_eq,
      decide_eq_false_iff_not, Nat.not_le] at hAhead hDue
    exact ⟨hWaits, Or.inr ⟨t, hTick, hAhead, hDue, w, hw, hAgent⟩⟩

/-- Whoever is cancelled meanwhile was overtaken. -/
theorem Still.overtakes_of_mem_play (hStill : s.Still) (hOld : a < s.schedule.nextAgent)
    (hCut : (a, .result (.error .cancelled)) ∈ s.endingsOver env later) :
    ∃ t ∈ s.ticksOver env later, t.Overtakes a := by
  induction later generalizing s with
  | nil => cases hCut
  | cons x later ih =>
    obtain ⟨hActs, hNext⟩ := hStill.acts_step env x
    rcases mem_endingsOver_cons.mp hCut with hNow | hThen
    · obtain hOverdue | ⟨t, ht, hOvertakes⟩ | ⟨rfl, -⟩ := hActs.cancelled a (Or.inl hNow)
      · exact absurd hOverdue (hStill.not_overdue a)
      · exact ⟨t, List.mem_append_left _ ht, hOvertakes⟩
      · exact absurd hOld (Nat.lt_irrefl _)
    · obtain ⟨t, ht, hOvertakes⟩ := ih hNext (Nat.lt_of_lt_of_le hOld hActs.next_le) hThen
      exact ⟨t, List.mem_append_right _ ht, hOvertakes⟩

/-- A command that is cancelled was cut short. -/
theorem Still.cutShort_of_cancelled (hStill : s.Still) (hSome : x.command? ≠ none)
    (hCut : (s.schedule.nextAgent, .result (.error .cancelled)) ∈ s.endingsOver env (x :: later)) :
    s.CutShort env x later := by
  obtain ⟨hActs, hNext⟩ := hStill.acts_step env x
  rcases mem_endingsOver_cons.mp hCut with hNow | hThen
  · obtain hOverdue | ⟨t, ht, hOvertakes⟩ | ⟨-, hZero, hWaits⟩ := hActs.cancelled _ (Or.inl hNow)
    · exact absurd hOverdue (hStill.not_overdue _)
    · exact hStill.cutShort_of_overtakes hSome (List.mem_append_left _ ht) hOvertakes
    · exact ⟨hWaits, Or.inl hZero⟩
  · obtain ⟨t, ht, hOvertakes⟩ := hNext.overtakes_of_mem_play (hActs.begun hSome).1 hThen
    exact hStill.cutShort_of_overtakes hSome (List.mem_append_right _ ht) hOvertakes

-- ---------------------------------------------------------------------------
-- Without a deadline
-- ---------------------------------------------------------------------------

/-- Does a step as `step` does, with another deadline for the command that it starts. The commands that
end by it come with the report. -/
def stepUntil (env : Surroundings) (s : Session) (deadline : Option Instant) (x : SessionStep) :
    Session × Report × List (Agent × Ending) :=
  let (acted, answer, first) := s.actUntil env deadline x
  let (schedule, later) := acted.schedule.settle env
  let ended := (first ++ later).filterMap fun e => (acted.tasks.get? e.1).map (·, e.2)
  (acted.settledAt schedule, ⟨answer, ended, schedule.ledger.journal, schedule.ledger.store.wallets⟩,
    s.ownEnding env deadline x ++ first ++ later)

theorem stepUntil_deadline (env : Surroundings) (s : Session) (x : SessionStep) :
    s.stepUntil env (some s.deadline) x = ((s.step env x).1, (s.step env x).2, s.endings env x) := by
  unfold stepUntil
  rw [actUntil_deadline]
  rfl

/-- What is reported of some steps if the command that the first of them starts has no deadline. -/
def playFreely (env : Surroundings) (s : Session) (x : SessionStep) (later : List SessionStep) :
    List (Report × List (Agent × Ending)) :=
  (s.stepUntil env none x).2 :: (s.stepUntil env none x).1.play env later

/-- A step is the same without the deadline of a command that is not overtaken by it. -/
theorem Still.spare_stepUntil (hStill : s.Still) (env : Surroundings)
    (hTicks : ∀ t ∈ s.ticks env x, ¬ t.Overtakes a)
    (hStart : s.HasToWait env x → s.schedule.nextAgent = a → s.timeout ≠ 0) :
    (s.spare a).stepUntil env (if s.schedule.nextAgent = a then none else some s.deadline) x =
      ((s.step env x).1.spare a, (s.step env x).2, s.endings env x) := by
  have hOrder := hStill.inOrder
  have hAhead := hStill.not_overdue a
  have hActs := hOrder.acts_act env x
  have hNotOverdue : ¬ (s.act env x).1.schedule.Overdue a := by
    intro hOverdue
    obtain hBefore | ⟨t, ht, hOvertakes⟩ | ⟨ha, hZero, hWaits⟩ :=
      hActs.cancelled a (Or.inr hOverdue)
    · exact hAhead hBefore
    · exact hTicks t ht hOvertakes
    · exact hStart hWaits ha.symm hZero
  have hSettled := Schedule.spare_settle env hActs.inOrder.timely hNotOverdue
  unfold stepUntil
  rw [hOrder.spare_act env hAhead hTicks hStart, hOrder.spare_ownEnding env hAhead hTicks hStart]
  simp only [spare, hSettled]
  rfl

/-- A step that starts no command of the agent's is the same without the deadline of the agent's
command, if the command is not overtaken by it. -/
theorem Still.spare_step (hStill : s.Still) (env : Surroundings) (hOld : a < s.schedule.nextAgent)
    (hTicks : ∀ t ∈ s.ticks env x, ¬ t.Overtakes a) :
    (s.spare a).step env x = ((s.step env x).1.spare a, (s.step env x).2) ∧
      (s.spare a).endings env x = s.endings env x := by
  have hNot : s.schedule.nextAgent ≠ a := Nat.ne_of_gt hOld
  have hStep := hStill.spare_stepUntil env hTicks fun _ ha => absurd ha hNot
  rw [if_neg hNot, show s.deadline = (s.spare a).deadline from rfl, stepUntil_deadline] at hStep
  simp only [Prod.mk.injEq] at hStep
  exact ⟨Prod.ext hStep.1 hStep.2.1, hStep.2.2⟩

/-- Without a deadline that nothing overtakes all goes the same way. -/
theorem Still.spare_play (hStill : s.Still) (hOld : a < s.schedule.nextAgent)
    (hTicks : ∀ t ∈ s.ticksOver env later, ¬ t.Overtakes a) :
    (s.spare a).play env later = s.play env later := by
  induction later generalizing s with
  | nil => rfl
  | cons x later ih =>
    obtain ⟨hActs, hNext⟩ := hStill.acts_step env x
    obtain ⟨hStep, hEndings⟩ := hStill.spare_step env hOld
      fun t ht => hTicks t (List.mem_append_left _ ht)
    rw [play, play, hStep, hEndings]
    simp only [ih hNext (Nat.lt_of_lt_of_le hOld hActs.next_le)
      fun t ht => hTicks t (List.mem_append_right _ ht)]

/-- Nobody waits under the agent that is the next. -/
theorem Still.spare_next (hStill : s.Still) : s.spare s.schedule.nextAgent = s := by
  have hSame : s.schedule.waiters.map (Waiter.spare s.schedule.nextAgent) = s.schedule.waiters :=
    (List.map_congr_left fun w hw =>
      Schedule.spare_of_ne (Nat.ne_of_lt (hStill.schedule.inOrder.old w hw))).trans (List.map_id _)
  unfold spare Schedule.spare
  rw [hSame]

/-- All goes as it would if a command that is not cut short had no deadline. -/
theorem Still.play_freely (hStill : s.Still) (hSome : x.command? ≠ none)
    (hNot : ¬ s.CutShort env x later) : s.play env (x :: later) = s.playFreely env x later := by
  have hTicks : ∀ t ∈ s.ticksOver env (x :: later), ¬ t.Overtakes s.schedule.nextAgent :=
    fun t ht hOvertakes => hNot (hStill.cutShort_of_overtakes hSome ht hOvertakes)
  obtain ⟨hActs, hNext⟩ := hStill.acts_step env x
  have hFirst := hStill.spare_stepUntil env (fun t ht => hTicks t (List.mem_append_left _ ht))
    fun hWaits _ hZero => hNot ⟨hWaits, Or.inl hZero⟩
  rw [if_pos rfl, hStill.spare_next] at hFirst
  have hRest := hNext.spare_play (hActs.begun hSome).1
    fun t ht => hTicks t (List.mem_append_right _ ht)
  rw [play, playFreely, hFirst, hRest]

-- ---------------------------------------------------------------------------
-- Sessions from the start
-- ---------------------------------------------------------------------------

/-- What the deadlines of a session's commands do, whatever the time limit is.

Between two steps each command that waits is blocked by a row that another transaction has locked, and
the instant until which it has time is ahead. So it is when the clock is about to be moved within a step,
but for a command in the foreground that has no time limit. Each command that a step starts under the
time limit ends, or is among those that wait. It is cancelled only if it has to wait, and still waits when
the clock comes to its deadline. If it is not cut short in this way, all goes as if it had no deadline. -/
theorem deadlines_cut_waiting_only (env : Surroundings) (lifetime timeout : Nat) :
    (∀ steps, ∀ w ∈ ((empty lifetime timeout).after env steps).schedule.waiters,
      ((empty lifetime timeout).after env steps).schedule.Blocked w ∧
        ∃ instant, w.deadline = some instant ∧
          ((empty lifetime timeout).after env steps).schedule.ledger.now < instant ∧
          (empty lifetime timeout).HasUntil env steps w.agent instant) ∧
    (∀ steps x, ∀ t ∈ ((empty lifetime timeout).after env steps).ticks env x, ∀ w ∈ t.waiters,
      t.schedule.Blocked w ∧
        (t.foreground? = some w ∧ w.deadline = none ∨
          ∃ instant, w.deadline = some instant ∧ t.schedule.ledger.now < instant ∧
            (empty lifetime timeout).HasUntil env (steps ++ [x]) w.agent instant)) ∧
    ∀ before x c later, x.command? = some c →
      let s := (empty lifetime timeout).after env before
      ((∃ e, (s.schedule.nextAgent, e) ∈ s.endingsOver env (x :: later)) ∨
        ∃ w ∈ (s.after env (x :: later)).schedule.waiters, w.agent = s.schedule.nextAgent) ∧
      ((s.schedule.nextAgent, .result (.error .cancelled)) ∈ s.endingsOver env (x :: later) →
        s.CutShort env x later) ∧
      (¬ s.CutShort env x later → s.play env (x :: later) = s.playFreely env x later) := by
  have hEmpty := still_empty lifetime timeout
  -- a deadline that is not due is ahead
  have hAhead : ∀ {w : Waiter} {now instant : Instant}, w.deadline = some instant →
      w.isDue now = false → now < instant := by
    intro w now instant hDeadline hNot
    simpa [Waiter.isDue, hDeadline] using hNot
  refine ⟨fun steps w hw => ?_, fun steps x t ht w hw => ?_, fun before x c later hCommand => ?_⟩
  · have hStill := (hEmpty.after env steps).schedule
    obtain ⟨instant, hDeadline, hHas⟩ := hEmpty.hasUntil rfl hw
    exact ⟨hStill.blocked hw, instant, hDeadline, hAhead hDeadline (hStill.ahead hw).2, hHas⟩
  · have hStill := (hEmpty.after env steps).still_of_mem_ticks ht
    refine ⟨hStill.blocked hw, ?_⟩
    obtain ⟨v, hv, hAgent, hSame⟩ | ⟨hFront, hAgent, hNone | ⟨hWaits, hDeadline⟩⟩ :=
      (hEmpty.after env steps).waiters_of_mem_ticks ht hw
    · obtain ⟨instant, hDeadline, hHas⟩ := hEmpty.hasUntil rfl hv
      rw [hSame] at hDeadline
      rw [hAgent] at hHas
      exact Or.inr ⟨instant, hDeadline, hAhead hDeadline (hStill.ahead hw).2, hHas.append [x]⟩
    · exact Or.inl ⟨hFront, hNone⟩
    · refine Or.inr ⟨_, hDeadline, hAhead hDeadline (hStill.ahead hw).2, ?_⟩
      rw [hAgent]
      exact hEmpty.hasUntil_last hWaits
  · have hStill := hEmpty.after env before
    have hSome : x.command? ≠ none := by simp [hCommand]
    exact ⟨hStill.ends_or_waits env hSome later, hStill.cutShort_of_cancelled hSome,
      hStill.play_freely hSome⟩

deriving instance DecidableEq for Ending

open Crowd (stillness coins walletOf fiveCoins)

/-- Two wallets are made, and a transaction locks that of user 1. -/
def audit : List SessionStep :=
  [.insert (walletOf 1 (coins 10)), .insert (walletOf 2 (coins 10)), .begin "audit",
    .lock "audit" (.ofNat 1) (.ofNat 1)]

/-- A session with a time limit of 100 milliseconds. -/
def audited : Session := (empty 0 100).after stillness audit

/-- Starts a transfer from the wallet of user 1 in the background. -/
def payment : SessionStep := .spawn "payment" (.transfer fiveCoins)

/-- The wallet is free again one millisecond before the time is up. -/
def released : List SessionStep := [.advance 99, .commit "audit", .advance 1]

/-- A payment that stays blocked is cancelled, so it was cut short; one whose wallet comes free in time
is made, and all goes as if it had no deadline. -/
theorem blocked_or_released :
    audited.CutShort stillness payment [.advance 100] ∧
      (audited.schedule.nextAgent, .result (.ok .unit)) ∈
        audited.endingsOver stillness (payment :: released) ∧
      audited.play stillness (payment :: released) =
        audited.playFreely stillness payment released := by
  have hPayment : payment.command? = some (.transfer fiveCoins) := rfl
  have hCancelled : (audited.schedule.nextAgent, .result (.error .cancelled)) ∈
      audited.endingsOver stillness [payment, .advance 100] := by
    decide +kernel
  have hMade : (audited.schedule.nextAgent, .result (.ok .unit)) ∈
      audited.endingsOver stillness (payment :: released) := by
    decide +kernel
  have hInTime : ¬ (audited.timeout = 0 ∨
      ∃ t ∈ audited.ticksOver stillness (payment :: released),
        t.schedule.ledger.now < audited.deadline ∧ audited.deadline ≤ t.instant ∧
          ∃ w ∈ t.waiters, w.agent = audited.schedule.nextAgent) := by
    decide +kernel
  obtain ⟨-, -, hDeadlines⟩ := deadlines_cut_waiting_only stillness 0 100
  exact ⟨(hDeadlines audit payment _ [.advance 100] hPayment).2.1 hCancelled, hMade,
    (hDeadlines audit payment _ released hPayment).2.2 fun hCut => hInTime hCut.2⟩

end Session

end Purse
