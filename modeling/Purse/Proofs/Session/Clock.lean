import Purse.Proofs.Session.Cuts
import Purse.Proofs.Session.Waits

/-!
# While the clock is moved

A command in the foreground is waited for round after round: all becomes still, the clock is moved to
the next deadline, and those whose deadline has come are cancelled. Whoever is cancelled meanwhile was
overdue from the start, or waited when the clock was moved past its deadline. In each round a deadline
comes or the command is given a row, so there are rounds enough for it to end.

## Definitions

* `Tick.Overtakes`: the clock is moved past the deadline of an agent that waits.
* `Schedule.Elapses`: what becomes of a schedule while the clock is moved.

## Results

* `elapses_await`: who is cancelled was overdue, or overtaken.
* `Awaits.overtakes_of_await`: so is a command in the foreground that is cancelled.
-/

namespace Purse

/-- The clock is moved past the deadline of an agent that waits. -/
def Tick.Overtakes (t : Tick) (a : Agent) : Prop :=
  ∃ w ∈ t.waiters, w.agent = a ∧ w.isDue t.schedule.ledger.now = false ∧ w.isDue t.instant = true

namespace Schedule

variable {env : Surroundings} {s s' s'' : Schedule} {a : Agent} {w : Waiter} {ticks ticks' : List Tick}
  {endings others : List (Agent × Ending)} {p : Program Reply}

/-- A deadline that has come by the later of two instants has come by one of them. -/
theorem isDue_max {now instant : Instant} (hDue : w.isDue (max now instant) = true) :
    w.isDue now = true ∨ w.isDue instant = true := by
  unfold Waiter.isDue at *
  cases hDeadline : w.deadline with
  | none => simp [hDeadline] at hDue
  | some deadline => simpa [hDeadline] using hDue

/-! ## Who is cancelled meanwhile -/

/-- What becomes of a schedule while commands are let run and the clock is moved, with the moments at
which it is moved and the endings that come of it: whoever is cancelled, or should be, was overdue or
has been overtaken. -/
structure Elapses (s s' : Schedule) (ticks : List Tick) (endings : List (Agent × Ending)) : Prop where
  next_le : s.nextAgent ≤ s'.nextAgent
  follows : s.Follows s'
  accounts : s.Accounts s' endings
  timely : s'.Timely
  overdue : ∀ a, (a, .result (.error .cancelled)) ∈ endings ∨ s'.Overdue a →
    s.Overdue a ∨ ∃ t ∈ ticks, t.Overtakes a

theorem Passes.elapses (hPasses : s.Passes s' endings) : s.Elapses s' [] endings where
  next_le := Nat.le_of_eq hPasses.nextAgent_eq.symm
  follows := hPasses.follows
  accounts := hPasses.accounts
  timely := hPasses.timely
  overdue a hCut := by
    rcases hCut with hEnded | hOverdue
    · exact Or.inl (hPasses.overdue a hEnded)
    · exact Or.inl (hPasses.follows.overdue hPasses.now_eq hOverdue)

theorem Keeps.passes (hKeeps : s.Keeps s') (hTimely : s.Timely) : s.Passes s' [] where
  now_eq := hKeeps.now_eq
  nextAgent_eq := hKeeps.nextAgent_eq
  follows w hw := ⟨w, hKeeps.waiters_eq ▸ hw, rfl, rfl⟩
  accounts := .of_waiters_eq hKeeps.waiters_eq []
  timely w hw := hTimely w (hKeeps.waiters_eq ▸ hw)
  overdue := by rintro _ ⟨⟩

theorem Elapses.trans (hFirst : s.Elapses s' ticks endings) (hThen : s'.Elapses s'' ticks' others) :
    s.Elapses s'' (ticks ++ ticks') (endings ++ others) where
  next_le := hFirst.next_le.trans hThen.next_le
  follows := hFirst.follows.trans hThen.follows
  accounts := hFirst.accounts.trans hThen.accounts
  timely := hThen.timely
  overdue a hCut := by
    have hBefore : (a, .result (.error .cancelled)) ∈ endings ∨ s'.Overdue a →
        s.Overdue a ∨ ∃ t ∈ ticks ++ ticks', t.Overtakes a := fun hEarly =>
      (hFirst.overdue a hEarly).imp_right fun ⟨t, ht, hOvertakes⟩ =>
        ⟨t, List.mem_append_left _ ht, hOvertakes⟩
    have hAfter : (a, .result (.error .cancelled)) ∈ others ∨ s''.Overdue a →
        s.Overdue a ∨ ∃ t ∈ ticks ++ ticks', t.Overtakes a := by
      intro hLate
      rcases hThen.overdue a hLate with hOverdue | ⟨t, ht, hOvertakes⟩
      · exact hBefore (Or.inr hOverdue)
      · exact Or.inr ⟨t, List.mem_append_right _ ht, hOvertakes⟩
    rcases hCut with hEnded | hOverdue
    · rcases List.mem_append.mp hEnded with hOld | hNew
      · exact hBefore (Or.inl hOld)
      · exact hAfter (Or.inl hNew)
    · exact hAfter (Or.inr hOverdue)

/-- When the clock is moved, those become overdue that are overtaken. -/
theorem elapses_moveClock (hTimely : s.Timely) (foreground? : Option Waiter) (instant : Instant) :
    s.Elapses (s.moveClock instant) [⟨s, foreground?, instant⟩] [] where
  next_le := Nat.le_refl _
  follows w hw := ⟨w, hw, rfl, rfl⟩
  accounts := .of_waiters_eq rfl []
  timely := hTimely
  overdue a hCut := by
    obtain ⟨w, hw, hAgent, hDue⟩ := hCut.resolve_left (by rintro ⟨⟩)
    cases hBefore : w.isDue s.ledger.now with
    | true => exact Or.inl ⟨w, hw, hAgent, hBefore⟩
    | false =>
      refine Or.inr ⟨_, List.mem_singleton_self _, w, List.mem_append_right _ hw, hAgent, hBefore, ?_⟩
      exact (isDue_max hDue).resolve_left (by simp [hBefore])

theorem elapses_movedFor (hTimely : s.Timely) (w : Waiter) :
    s.Elapses (s.movedFor w) (s.tickFor w) [] := by
  obtain ⟨hSame, hNone, -⟩ | ⟨instant, -, -, hMoved, hTick⟩ := s.movedFor_cases w
  · rw [hSame, hNone]
    exact (Passes.refl hTimely).elapses
  · rw [hMoved, hTick]
    exact elapses_moveClock hTimely _ _

theorem elapses_await (env : Surroundings) (hTimely : s.Timely) (moves : Nat) (w : Waiter) :
    s.Elapses (await env moves s w).1 (Schedule.ticks env moves s w)
      (await env moves s w).2.2 := by
  induction moves generalizing s w with
  | zero =>
    have hKeeps : s.Keeps (s.abandon w.agent (some w.row)) := ⟨rfl, rfl, rfl⟩
    exact (hKeeps.passes hTimely).elapses
  | succ moves ih =>
    have hSettled := passes_settle env hTimely
    have hMoved := hSettled.elapses.trans (elapses_movedFor hSettled.timely w)
    have hPolled := hMoved.trans ((keeps_poll env _ w).passes hMoved.timely).elapses
    rw [await_succ, Schedule.ticks]
    cases hTurn : ((s.settle env).1.movedFor w).poll env w with
    | ended e s' =>
      rw [hTurn] at hPolled
      simpa [Turn.schedule] using hPolled
    | waiting w' s' =>
      rw [hTurn] at hPolled
      simpa [Turn.schedule] using hPolled.trans (ih hPolled.timely w')

/-! ## A command in the foreground -/

/-- How many of the commands in the background have their deadlines ahead. -/
def countAhead (s : Schedule) : Nat := (s.waiters.filter fun w => !w.isDue s.ledger.now).length

/-- Once all is still, those wait whose deadlines are ahead. -/
theorem Awaits.length_settle (env : Surroundings) (hAwaits : s.Awaits w) (hTimely : s.Timely) :
    (s.settle env).1.waiters.length ≤ s.countAhead := by
  obtain ⟨hOrder, hReady, -⟩ := hAwaits.settle env
  have hPasses := passes_settle env hTimely
  have hSub : (s.settle env).1.waiters.map Waiter.agent ⊆
      (s.waiters.filter fun w => !w.isDue s.ledger.now).map Waiter.agent := by
    intro a hMem
    obtain ⟨v, hv, rfl⟩ := List.mem_map.mp hMem
    obtain ⟨u, hu, hAgent, hDeadline⟩ := hPasses.follows v hv
    refine List.mem_map.mpr ⟨u, List.mem_filter.mpr ⟨hu, ?_⟩, hAgent⟩
    rw [Waiter.isDue, hDeadline, ← hPasses.now_eq, ← Waiter.isDue, (hOrder.ahead hReady hv).2]
    rfl
  have hLe := (List.subperm_of_subset hOrder.nodup_others hSub).length_le
  rwa [List.length_map, List.length_map] at hLe

/-- When the clock is moved to a deadline that is not that of the command in the foreground, a
deadline has come. -/
theorem countAhead_moveClock {instant : Instant} (hNext : s.nextDeadline? w = some instant)
    (hAhead : w.isDue (s.moveClock instant).ledger.now = false) :
    (s.moveClock instant).countAhead < s.waiters.length := by
  obtain ⟨v, hv, hDeadline⟩ := List.mem_filterMap.mp (List.min?_mem hNext)
  have hDue : v.isDue (s.moveClock instant).ledger.now = true := by
    unfold Waiter.isDue
    rw [hDeadline]
    exact decide_eq_true (Nat.le_max_right _ _)
  have hIn : v ∈ s.waiters := by
    refine (List.mem_cons.mp hv).resolve_left ?_
    rintro rfl
    rw [hDue] at hAhead
    cases hAhead
  unfold countAhead
  refine List.length_filter_lt_length_iff_exists.mpr ⟨v, hIn, ?_⟩
  simp [hDue]

/-- When the clock is moved to the next deadline a command that still waits is overtaken, or it stays
and a deadline of somebody else's has come. -/
theorem overtakes_or_stays (env : Surroundings) {instant : Instant} (hUngranted : s.isGranted w = false)
    (hNext : s.nextDeadline? w = some instant) (hAhead : w.isDue s.ledger.now = false) :
    (Tick.mk s (some w) instant).Overtakes w.agent ∨
      (s.moveClock instant).poll env w = .waiting w (s.moveClock instant) ∧
        (s.moveClock instant).countAhead < s.waiters.length := by
  cases hDue : w.isDue (s.moveClock instant).ledger.now with
  | true =>
    refine Or.inl ⟨w, List.mem_cons_self, rfl, hAhead, ?_⟩
    exact (isDue_max hDue).resolve_left (by simp [hAhead])
  | false =>
    refine Or.inr ⟨?_, countAhead_moveClock hNext hDue⟩
    unfold poll
    rw [if_neg (by rw [Bool.not_eq_true]; exact hUngranted), if_neg (by simp [hDue])]

/-- A command that has been given its row goes on, and is not cancelled if its deadline is ahead. -/
theorem poll_of_granted (env : Surroundings) (hOrder : s.InOrder (some w) [] s.waiters)
    (hGranted : s.isGranted w = true) (hFrank : w.Timely)
    (hAhead : w.isDue s.ledger.now = false) :
    match s.poll env w with
    | .ended e _ => e ≠ .result (.error .cancelled)
    | .waiting w' s' => s.Keeps s' ∧ w'.agent = w.agent ∧ w'.deadline = w.deadline ∧ w'.Timely ∧
        w'.waits ≤ w.waits - 1 := by
  have hFair := fair_poll env s hFrank
  have hKeeps := keeps_poll env s w
  obtain ⟨-, hSettles⟩ | ⟨hNot, -⟩ | ⟨hNot, -⟩ := hOrder.poll env
  · cases hTurn : s.poll env w with
    | ended e s' =>
      rw [hTurn] at hFair hKeeps
      rintro rfl
      have hDue : w.isDue s'.ledger.now = true := hFair rfl
      rw [show s'.ledger.now = s.ledger.now from hKeeps.now_eq, hAhead] at hDue
      cases hDue
    | waiting w' s' =>
      rw [hTurn] at hFair hKeeps hSettles
      exact ⟨hKeeps, hFair.1, hFair.2.1, hFair.2.2, hSettles.2.2.2.1⟩
  · simp [hGranted] at hNot
  · simp [hGranted] at hNot

/-- A command in the foreground that is cancelled was overtaken: there are rounds enough for it to be
given its rows otherwise. -/
theorem Awaits.overtakes_of_await (env : Surroundings) {moves : Nat} (hAwaits : s.Awaits w)
    (hTimely : s.Timely) (hFrank : w.Timely) (hDeadline : w.deadline ≠ none)
    (hMoves : w.waits + s.countAhead ≤ moves)
    (hEnding : (Schedule.await env moves s w).2.1 = .result (.error .cancelled)) :
    ∃ t ∈ Schedule.ticks env moves s w, t.Overtakes w.agent := by
  have hOnce : 1 ≤ w.waits := Program.waits_pos _
  induction moves generalizing s w with
  | zero => omega
  | succ moves ih =>
    have hSettled := passes_settle env hTimely
    have hLength := hAwaits.length_settle env hTimely
    have hRound := hAwaits.round env
    obtain ⟨hOrder, -, hStill⟩ := hAwaits.settle env
    have hAhead : w.isDue (s.settle env).1.ledger.now = false := by
      rw [hSettled.now_eq]
      exact hAwaits.ahead
    rw [await_succ] at hEnding
    rw [Schedule.ticks]
    generalize (s.settle env).1 = s₁ at *
    obtain ⟨hSame, hNone, hWhy⟩ | ⟨instant, hUngranted, hNext, hMoved, hTick⟩ := s₁.movedFor_cases w
    · -- it has been given its row, and has one wait fewer before it
      have hGranted : s₁.isGranted w = true := by
        refine hWhy.resolve_right fun hLast => hDeadline ?_
        have hNever := List.filterMap_eq_nil_iff.mp (List.min?_eq_none_iff.mp hLast)
        exact hNever w List.mem_cons_self
      have hPolled := poll_of_granted env hOrder hGranted hFrank hAhead
      rw [hSame] at hEnding hRound ⊢
      cases hTurn : s₁.poll env w with
      | ended e s' =>
        rw [hTurn] at hPolled hEnding
        exact absurd hEnding hPolled
      | waiting w' s' =>
        rw [hTurn] at hPolled hEnding hRound
        obtain ⟨hKeeps, hAgent, hUntil, hFrank', hFewer⟩ := hPolled
        have hLess : s'.countAhead ≤ s₁.waiters.length := by
          rw [← hKeeps.waiters_eq]
          exact List.length_filter_le _ _
        obtain ⟨t, ht, hOvertakes⟩ := ih hRound (hKeeps.passes hSettled.timely).timely hFrank'
          (by rw [hUntil]; exact hDeadline) (by omega) hEnding (Program.waits_pos _)
        exact ⟨t, List.mem_append_right _ ht, hAgent ▸ hOvertakes⟩
    · -- it is overtaken, or somebody else's deadline comes
      rw [hMoved] at hEnding hRound ⊢
      rcases overtakes_or_stays env hUngranted hNext hAhead with hOvertakes | ⟨hStays, hLess⟩
      · refine ⟨⟨s₁, some w, instant⟩, ?_, hOvertakes⟩
        rw [hTick]
        exact List.mem_cons_self
      · rw [hStays] at hEnding hRound ⊢
        obtain ⟨t, ht, hOvertakes⟩ := ih hRound hSettled.timely hFrank hDeadline (by omega)
          hEnding hOnce
        exact ⟨t, List.mem_append_right _ ht, hOvertakes⟩

/-! ## Commands that are started -/

/-- To start a command takes no time, and leaves the others waiting. -/
theorem keeps_start (env : Surroundings) (s : Schedule) (p : Program Reply)
    (deadline : Option Instant) :
    Keeps { s with nextAgent := s.nextAgent + 1 } (s.start env p deadline).schedule :=
  keeps_turn _ _ deadline (now_drive env _ p _ [])

theorem elapses_newAgent (hTimely : s.Timely) :
    s.Elapses { s with nextAgent := s.nextAgent + 1 } [] [] where
  next_le := Nat.le_succ _
  follows w hw := ⟨w, hw, rfl, rfl⟩
  accounts := .of_waiters_eq rfl []
  timely := hTimely
  overdue _ hCut := Or.inl (hCut.resolve_left (by rintro ⟨⟩))

theorem elapses_start (env : Surroundings) (hTimely : s.Timely) (p : Program Reply)
    (deadline : Option Instant) : s.Elapses (s.start env p deadline).schedule [] [] :=
  (elapses_newAgent hTimely).trans ((keeps_start env s p deadline).passes hTimely).elapses

theorem elapses_execute (env : Surroundings) (hTimely : s.Timely) (p : Program Reply)
    (deadline : Option Instant) :
    s.Elapses (s.execute env p deadline).1 (s.ticksOf env p deadline)
      (s.execute env p deadline).2.2 := by
  have hStarted := elapses_start env hTimely p deadline
  unfold execute ticksOf
  cases hTurn : s.start env p deadline with
  | ended e s' =>
    rw [hTurn] at hStarted
    exact hStarted
  | waiting w s' =>
    rw [hTurn] at hStarted
    exact hStarted.trans (elapses_await env hStarted.timely _ w)

/-- The agent of a program that is run to its end is not used again. -/
theorem next_lt_execute (env : Surroundings) (hTimely : s.Timely) (p : Program Reply)
    (deadline : Option Instant) : s.nextAgent < (s.execute env p deadline).1.nextAgent := by
  have hStarted := elapses_start env hTimely p deadline
  have hNext := (keeps_start env s p deadline).nextAgent_eq
  have hLt : s.nextAgent < (s.start env p deadline).schedule.nextAgent :=
    hNext.symm ▸ Nat.lt_succ_self _
  unfold execute
  cases hTurn : s.start env p deadline with
  | ended e s' =>
    rw [hTurn] at hLt
    exact hLt
  | waiting w s' =>
    rw [hTurn] at hLt hStarted
    exact Nat.lt_of_lt_of_le hLt (elapses_await env hStarted.timely _ w).next_le

/-- A command that is cancelled at once had to wait, with its deadline come. -/
theorem waits_of_start (env : Surroundings) (s : Schedule) {deadline : Option Instant}
    (hFrank : p.Timely) (hTurn : s.start env p deadline = .ended (.result (.error .cancelled)) s') :
    (s.ledger.drive env s.nextAgent p []).Waits ∧
      deadline.any (· ≤ s.ledger.now) = true := by
  have hWaits := waits_of_turn (Ledger.drive_timely hFrank env s.ledger s.nextAgent []) hTurn
  rwa [now_drive] at hWaits

/-- A command that waits waits under its agent, with its deadline. -/
theorem fair_start (env : Surroundings) (s : Schedule) (deadline : Option Instant)
    (hFrank : p.Timely) : (s.start env p deadline).Fair s.nextAgent deadline :=
  fair_turn _ _ _ (Ledger.drive_timely hFrank env s.ledger s.nextAgent [])

/-- A command that is run to its end and cancelled was overtaken, or had to wait with its deadline
come. -/
theorem InOrder.cut_of_execute (env : Surroundings) (hOrder : s.InOrder none [] s.waiters)
    (hTimely : s.Timely) (hStart : p.Startable) (hFrank : p.Timely) (deadline : Instant)
    (hEnding : (s.execute env p (some deadline)).2.1 = .result (.error .cancelled)) :
    (∃ t ∈ s.ticksOf env p (some deadline), t.Overtakes s.nextAgent) ∨
      deadline ≤ s.ledger.now ∧ (s.ledger.drive env s.nextAgent p []).Waits := by
  have hSettles := hOrder.start env hStart (some deadline)
  have hAwaits := hSettles.awaits (waiters_start env s p _)
  have hFair := fair_start env s (some deadline) hFrank
  have hStarted := elapses_start env hTimely p (some deadline)
  unfold Schedule.execute at hEnding
  unfold ticksOf
  cases hTurn : s.start env p (some deadline) with
  | ended e s' =>
    rw [hTurn] at hEnding
    obtain rfl : e = .result (.error .cancelled) := hEnding
    obtain ⟨hWaits, hDue⟩ := waits_of_start env s hFrank hTurn
    exact Or.inr ⟨by simpa using hDue, hWaits⟩
  | waiting w s' =>
    rw [hTurn] at hEnding hSettles hAwaits hFair hStarted
    obtain ⟨hAgent, hDeadline, hFrank'⟩ := hFair
    have hTwice : w.waits ≤ 2 := hSettles.2.2.2.1
    have hCount : s'.countAhead ≤ s'.waiters.length := List.length_filter_le _ _
    have hOvertaken := Awaits.overtakes_of_await env hAwaits hStarted.timely hFrank'
      (by simp [hDeadline]) (by omega) hEnding
    rw [hAgent] at hOvertaken
    exact Or.inl hOvertaken

/-! ## Who waits when the clock is moved -/

/-- Those wait when the clock is moved who have waited before, and the command in the foreground. -/
theorem waiters_of_mem_ticks (env : Surroundings) (hTimely : s.Timely) (hFrank : w.Timely)
    {moves : Nat} {t : Tick} (hMem : t ∈ Schedule.ticks env moves s w) :
    s.Follows t.schedule ∧
      ∃ v, t.foreground? = some v ∧ v.agent = w.agent ∧ v.deadline = w.deadline := by
  induction moves generalizing s w with
  | zero => cases hMem
  | succ moves ih =>
    have hSettled := passes_settle env hTimely
    rcases List.mem_append.mp hMem with hNow | hLater
    · obtain ⟨-, instant, -, rfl⟩ := mem_tickFor.mp hNow
      exact ⟨hSettled.follows, w, rfl, rfl, rfl⟩
    · have hMoved := hSettled.elapses.trans (elapses_movedFor hSettled.timely w)
      have hPolled := hMoved.trans ((keeps_poll env _ w).passes hMoved.timely).elapses
      have hFair := fair_poll env ((s.settle env).1.movedFor w) hFrank
      cases hTurn : ((s.settle env).1.movedFor w).poll env w with
      | ended e s' =>
        rw [hTurn] at hLater
        cases hLater
      | waiting w' s' =>
        rw [hTurn] at hLater hPolled hFair
        obtain ⟨hAgent, hDeadline, hFrank'⟩ := hFair
        obtain ⟨hFollows, v, hv, hAgent', hDeadline'⟩ := ih hPolled.timely hFrank' hLater
        exact ⟨hPolled.follows.trans hFollows, v, hv, hAgent'.trans hAgent,
          hDeadline'.trans hDeadline⟩

/-- The clock is moved only for a command that has to wait. -/
theorem waits_of_mem_ticksOf {env : Surroundings} {deadline : Option Instant} {t : Tick}
    (hMem : t ∈ s.ticksOf env p deadline) : (s.ledger.drive env s.nextAgent p []).Waits := by
  unfold ticksOf at hMem
  cases hTurn : s.start env p deadline with
  | ended e s' =>
    rw [hTurn] at hMem
    cases hMem
  | waiting w s' => exact waits_of_waiting hTurn

theorem waiters_of_mem_ticksOf (env : Surroundings) (hTimely : s.Timely) (hFrank : p.Timely)
    {deadline : Option Instant} {t : Tick} (hMem : t ∈ s.ticksOf env p deadline) :
    s.Follows t.schedule ∧
      ∃ v, t.foreground? = some v ∧ v.agent = s.nextAgent ∧ v.deadline = deadline := by
  have hStarted := elapses_start env hTimely p deadline
  have hFair := fair_start env s deadline hFrank
  unfold ticksOf at hMem
  cases hTurn : s.start env p deadline with
  | ended e s' =>
    rw [hTurn] at hMem
    cases hMem
  | waiting w s' =>
    rw [hTurn] at hMem hStarted hFair
    obtain ⟨hAgent, hDeadline, hFrank'⟩ := hFair
    obtain ⟨hFollows, v, hv, hAgent', hDeadline'⟩ :=
      waiters_of_mem_ticks env hStarted.timely hFrank' hMem
    exact ⟨hStarted.follows.trans hFollows, v, hv, hAgent'.trans hAgent,
      hDeadline'.trans hDeadline⟩

end Schedule

end Purse
