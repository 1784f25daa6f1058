import Purse.Proofs.Session.Clock

/-!
# What is done by hand

Besides the commands there are calls by hand: on the store and the keys, and within transactions that
are open under a name. None of them waits. To the schedule an agent that is used by hand is one more
agent of the crowd behind it: its call is a bout like any other, and when it is done the schedule is
still in order, with the same commands waiting.

## Definitions

* `Schedule.ByHand`: what is done by hand keeps the clock and the commands that wait.
* `Session.InOrder`: a schedule in order, whose named transactions are nobody's commands.
* `Session.Steps`: what is done by hand in a session.

## Results

* `InOrder.performed`, `InOrder.executed`: a call by hand keeps a schedule in order.
* `InOrder.steps_act`: so does every step of a session by hand.
-/

namespace Purse

-- ---------------------------------------------------------------------------
-- Calls by hand
-- ---------------------------------------------------------------------------

namespace Ledger

variable {env : Surroundings} {l l' : Ledger} {a : Agent} {c : Call} {answer : Result c.Answer}
  {woken : List Agent}

/-- What a call is answered does not depend on the failures that are arranged, nor on the journal. -/
theorem execute_plain (failing : Table Method String) (journal : List JournalEntry)
    (hReplied : l.execute env a c = .replied answer l' woken) :
    execute env { l with failing, journal } a c =
      .replied answer { l' with failing, journal } woken := by
  have hStep : ∀ {l : Ledger} {step : Store.Step c.Answer},
      l.ofStep step = .replied answer l' woken →
      ofStep { l with failing, journal } step =
        .replied answer { l' with failing, journal } woken := by
    intro l step hOutcome
    cases step with
    | replied answer' s others =>
      cases hOutcome
      rfl
    | waiting row s => cases hOutcome
  cases c with
  | lock | addWithin | add => exact hStep hReplied
  | insert w =>
    simp only [execute] at hReplied ⊢
    cases hInsert : l.store.insert w with
    | ok s =>
      simp only [hInsert] at hReplied ⊢
      cases hReplied
      rfl
    | error e =>
      simp only [hInsert] at hReplied ⊢
      cases hReplied
      rfl
  | claim key =>
    simp only [execute] at hReplied ⊢
    cases hClaim : l.keys.claim l.now key with
    | ok answered =>
      simp only [hClaim] at hReplied ⊢
      cases hReplied
      rfl
    | error fault =>
      simp only [hClaim] at hReplied
      cases hReplied
  | newId =>
    simp only [execute] at hReplied ⊢
    cases hMint : l.mint.next? (l.wallTime env).toMillis.toNat (env.random l.readings) with
    | some minted =>
      have hSame : (wallTime env { l with failing, journal }) = l.wallTime env := rfl
      simp only [hMint, hSame] at hReplied ⊢
      cases hReplied
      rfl
    | none =>
      have hSame : (wallTime env { l with failing, journal }) = l.wallTime env := rfl
      simp only [hMint, hSame] at hReplied ⊢
      cases hReplied
      rfl
  | begin | commit | rollback | get | list | release | readClock =>
    cases hReplied
    rfl

theorem exists_record (l : Ledger) (a : Agent) (c : Call) :
    ∃ journal, l.record a c = { l with journal } := by
  unfold record
  split
  · exact ⟨_, rfl⟩
  · exact ⟨l.journal, rfl⟩

/-- Where no failure is arranged a call is answered in earnest. -/
theorem perform_plain (hReplied : l.execute env a c = .replied answer l' woken) :
    ∃ journal, perform env { l with failing := Table.empty } a c =
      .replied answer { l' with failing := Table.empty, journal } woken := by
  obtain ⟨journal, hRecord⟩ := exists_record { l with failing := Table.empty } a c
  refine ⟨journal, ?_⟩
  have hEarnest := execute_plain Table.empty journal hReplied
  unfold perform
  rw [hRecord]
  cases c.method? <;> exact hEarnest

/-- A call runs into a limit before it has done anything. -/
theorem execute_faulted {f : Fault} (hFaulted : l.execute env a c = .faulted f l') : l' = l := by
  have hStep : ∀ {l : Ledger} {step : Store.Step c.Answer}, l.ofStep step ≠ .faulted f l' := by
    intro l step hOutcome
    cases step <;> cases hOutcome
  cases c with
  | lock | addWithin | add => exact absurd hFaulted hStep
  | insert w =>
    simp only [execute] at hFaulted
    split at hFaulted <;> cases hFaulted
  | claim key =>
    simp only [execute] at hFaulted
    split at hFaulted
    · cases hFaulted
    · cases hFaulted
      rfl
  | newId =>
    simp only [execute] at hFaulted
    split at hFaulted <;> cases hFaulted
  | begin | commit | rollback | get | list | release | readClock => cases hFaulted

end Ledger

/-- What ends a transaction by an outcome is one call. -/
theorem Ledger.drive_finish (env : Surroundings) (l : Ledger) (a : Agent) (outcome : Result Unit) :
    ∃ c : Call, c.fits true = true ∧ ∃ answer l' woken,
      l.perform env a c = .replied answer l' woken ∧
      ∃ r, l.drive env a (finish outcome) [] = .ended r l' woken := by
  have hEnds : ∀ c : Call, (c = .commit ∨ c = .rollback) →
      ∃ answer l' woken, l.perform env a c = .replied answer l' woken := by
    rintro c (rfl | rfl)
    all_goals
      unfold perform
      simp only [Call.method?]
      split <;> exact ⟨_, _, _, rfl⟩
  cases outcome with
  | ok value =>
    obtain ⟨answer, l', woken, hReplied⟩ := hEnds .commit (Or.inl rfl)
    refine ⟨.commit, rfl, answer, l', woken, hReplied, ?_⟩
    show ∃ r, l.drive env a (.call .commit _) [] = _
    simp only [drive, hReplied]
    cases answer <;> exact ⟨_, rfl⟩
  | error e =>
    obtain ⟨answer, l', woken, hReplied⟩ := hEnds .rollback (Or.inr rfl)
    refine ⟨.rollback, rfl, answer, l', woken, hReplied, ?_⟩
    show ∃ r, l.drive env a (.call .rollback _) [] = _
    simp only [drive, hReplied]
    exact ⟨_, rfl⟩

/-- What an agent that is used by hand may have left to do: it drops its transaction, if it has one. -/
def Program.leaving (isOpen : Bool) : Program Reply :=
  if isOpen then .call .rollback fun _ => .done (.ok .unit) else .done (.ok .unit)

theorem Program.orderly_leaving (isOpen : Bool) : (leaving isOpen).Orderly isOpen := by
  cases isOpen with
  | false => rfl
  | true => exact ⟨rfl, fun _ => rfl⟩

theorem Program.rowLast_leaving (isOpen : Bool) : (leaving isOpen).RowLast := by
  cases isOpen with
  | false => trivial
  | true => exact fun _ => ⟨trivial, fun hRow => absurd rfl hRow⟩

namespace Schedule

variable {env : Surroundings} {s s' s'' : Schedule} {ws : List Waiter} {a : Agent} {c : Call}
  {l : Ledger} {woken : List Agent} {isOpen : Bool} {answer : Result c.Answer}

/-- A call by an agent that is no waiting command, with the failures that are arranged. -/
theorem InOrder.performed (hOrder : s.InOrder none [] ws) (hOld : a < s.nextAgent)
    (hNot : ∀ w ∈ ws, w.agent ≠ a) (hFits : c.fits isOpen = true)
    (hClosed : isOpen = false → s.ledger.store.copies a = [])
    (hReplied : s.ledger.perform env a c = .replied answer l woken) :
    (s.wake l woken).InOrder none [] ws := by
  let next : Result c.Answer → Program Reply := fun answer =>
    .leaving (c.leavesOpen isOpen answer)
  have hOrderly : (Thread.calling c next).Orderly isOpen :=
    ⟨hFits, fun answer => Program.orderly_leaving _⟩
  obtain ⟨crowd, hLedger, hSeats, hThread⟩ := hOrder.seat hNot rfl hOrderly hClosed
  have hBout := Crowd.bout_perform env hSeats.sound hThread
  rw [hLedger, hReplied] at hBout
  have hBout : Crowd.Bout a crowd (crowd.goOn a l (.ofProgram (next answer))) woken := hBout
  have hThen := Crowd.threads_goOn (s := crowd) (a := a) l (.ofProgram (next answer))
  refine hOrder.bout hLedger hSeats (by rintro _ ⟨⟩) hNot hOld hBout (by rintro _ ⟨⟩) (fun _ => ?_) ?_
  · show (Crowd.threads _ a).row? = none
    rw [hThen]
    exact Thread.row?_ofProgram _
  · rw [hThen]
    exact .of_rowLast (Program.rowLast_leaving _) (by decide)

/-- A call by an agent that is no waiting command, in earnest. -/
theorem InOrder.executed (hOrder : s.InOrder none [] ws) (hOld : a < s.nextAgent)
    (hNot : ∀ w ∈ ws, w.agent ≠ a) (hFits : c.fits isOpen = true)
    (hClosed : isOpen = false → s.ledger.store.copies a = [])
    (hReplied : s.ledger.execute env a c = .replied answer l woken) :
    (s.wake l woken).InOrder none [] ws := by
  -- no failures are arranged, and afterwards they are again
  have hPlain : InOrder { s with ledger := { s.ledger with failing := Table.empty } } none [] ws :=
    hOrder.aside rfl rfl hOrder.ready_nodup hOrder.listed hOrder.ready_iff
  obtain ⟨journal, hPerformed⟩ := Ledger.perform_plain hReplied
  have hDone := hPlain.performed hOld hNot hFits hClosed hPerformed
  exact hDone.aside (l := l) rfl rfl hDone.ready_nodup hDone.listed hDone.ready_iff

/-- An agent that was used once, and has no copies, may be used again. -/
theorem InOrder.forget
    (hOrder : InOrder { s with nextAgent := s.nextAgent + 1 } none [] ws)
    (hNot : ∀ w ∈ ws, w.agent ≠ s.nextAgent)
    (hNone : s.ledger.store.copies s.nextAgent = []) : s.InOrder none [] ws where
  seats := hOrder.seats
  within := hOrder.within
  agents := hOrder.agents
  old w hMem := Nat.lt_of_le_of_ne (Nat.le_of_lt_succ (hOrder.old w hMem)) (hNot w hMem)
  fresh a ha := by
    rcases Nat.eq_or_lt_of_le ha with rfl | hLater
    · exact hNone
    · exact hOrder.fresh a hLater
  ready_nodup := hOrder.ready_nodup
  listed := hOrder.listed
  ready_iff := hOrder.ready_iff
  passed := hOrder.passed

/-- A call outside of transactions by an agent that is nobody yet. -/
theorem InOrder.executed_once (hOrder : s.InOrder none [] ws) (hFits : c.fits false = true)
    (hShut : ∀ answer, c.leavesOpen false answer = false)
    (hReplied : s.ledger.execute env s.nextAgent c = .replied answer l woken) :
    (s.wake l woken).InOrder none [] ws := by
  have hNot : ∀ w ∈ ws, w.agent ≠ s.nextAgent := fun w hw => Nat.ne_of_lt (hOrder.old w hw)
  have hNone : s.ledger.store.copies s.nextAgent = [] := hOrder.fresh _ (Nat.le_refl _)
  refine forget (s := s.wake l woken) ?_ hNot ?_
  · exact hOrder.newAgent.executed (Nat.lt_succ_self _) hNot hFits (fun _ => hNone) hReplied
  · obtain ⟨crowd, hLedger, hSeats⟩ := hOrder.seats
    have hCoh := hSeats.sound.coherent
    rw [hLedger] at hCoh
    have hTold : (s.ledger.execute env s.nextAgent c).Told (s.ledger.store.view s.nextAgent)
        s.nextAgent := Ledger.execute_told hCoh hFits fun _ => hNone
    rw [hReplied] at hTold
    exact Told.closed hTold hFits (fun _ => hNone) (hShut answer)

/-- An agent that is no waiting command is dropped. -/
theorem InOrder.abandon_idle (hOrder : s.InOrder none [] ws) (hOld : a < s.nextAgent)
    (hNot : ∀ w ∈ ws, w.agent ≠ a) : (s.abandon a none).InOrder none [] ws := by
  obtain ⟨crowd, hLedger, hSeats⟩ := hOrder.seats
  have hOver := hOrder.over hLedger hSeats (by rintro _ ⟨⟩) hNot hOld
    (Crowd.bout_dropped hSeats.sound a) (Crowd.threads_goOn _ _)
  have hSame : (crowd.dropped a).ledger = (s.ledger.abandon a none).1 := by
    show (crowd.ledger.abandon a (crowd.pending a)).1 = _
    rw [hSeats.idle hNot, hLedger]
  rw [hSame, hSeats.idle hNot, hLedger] at hOver
  exact hOver

/-! ## What stays as it is -/

theorem wake_nil (s : Schedule) (l : Ledger) : s.wake l [] = { s with ledger := l } := by
  simp [wake]

/-- What is done by hand takes no time, and keeps the commands that wait. -/
structure ByHand (s s' : Schedule) : Prop where
  now_eq : s'.ledger.now = s.ledger.now
  next_le : s.nextAgent ≤ s'.nextAgent
  waiters_eq : s'.waiters = s.waiters
  inOrder : s'.InOrder none [] s.waiters

theorem ByHand.trans (hFirst : s.ByHand s') (hThen : s'.ByHand s'') : s.ByHand s'' where
  now_eq := hThen.now_eq.trans hFirst.now_eq
  next_le := hFirst.next_le.trans hThen.next_le
  waiters_eq := hThen.waiters_eq.trans hFirst.waiters_eq
  inOrder := by
    rw [← hFirst.waiters_eq]
    exact hThen.inOrder

/-- Nobody is overdue by what is done by hand. -/
theorem ByHand.elapses (hByHand : s.ByHand s') (hTimely : s.Timely) : s.Elapses s' [] [] where
  next_le := hByHand.next_le
  follows w hw := ⟨w, hByHand.waiters_eq ▸ hw, rfl, rfl⟩
  accounts := .of_waiters_eq hByHand.waiters_eq []
  timely w hw := hTimely w (hByHand.waiters_eq ▸ hw)
  overdue a hCut := by
    obtain ⟨w, hw, hAgent, hDue⟩ := hCut.resolve_left (by rintro ⟨⟩)
    rw [hByHand.waiters_eq] at hw
    rw [hByHand.now_eq] at hDue
    exact Or.inl ⟨w, hw, hAgent, hDue⟩

theorem InOrder.byHand_aside {l : Ledger} (hOrder : s.InOrder none [] s.waiters)
    (hRows : l.store.rows = s.ledger.store.rows)
    (hTransactions : l.store.transactions = s.ledger.store.transactions)
    (hNow : l.now = s.ledger.now) : s.ByHand { s with ledger := l } where
  now_eq := hNow
  next_le := Nat.le_refl _
  waiters_eq := rfl
  inOrder := by
    refine hOrder.aside hRows hTransactions hOrder.ready_nodup hOrder.listed ?_
    rw [hNow]
    exact hOrder.ready_iff

end Schedule

-- ---------------------------------------------------------------------------
-- Sessions
-- ---------------------------------------------------------------------------

/-- Steps that start no command, and do not move the clock. -/
def SessionStep.IsByHand : SessionStep → Prop
  | .command _ | .create _ | .topup _ | .transfer _ | .spawn _ _ | .advance _ => False
  | _ => True

namespace Session

open Schedule (ByHand)

variable {env : Surroundings} {s s' s'' : Session} {a : Agent} {c : Call} {name : String}
  {isOpen : Bool}

/-- The schedule is in order, no waiting command will say by itself that its deadline has passed, and
the named transactions are none of the waiting commands'. -/
structure InOrder (s : Session) : Prop where
  schedule : s.schedule.InOrder none [] s.schedule.waiters
  timely : s.schedule.Timely
  named : ∀ {name a}, s.transactions.get? name = some a →
    a < s.schedule.nextAgent ∧ ∀ w ∈ s.schedule.waiters, w.agent ≠ a

/-- What is done by hand in a session: the time limit stays, and a transaction gets a name only when
it is new. -/
structure Steps (s s' : Session) : Prop where
  byHand : s.schedule.ByHand s'.schedule
  timeout_eq : s'.timeout = s.timeout
  named : ∀ {name a}, s'.transactions.get? name = some a →
    s.transactions.get? name = some a ∨
      s.schedule.nextAgent ≤ a ∧ a < s'.schedule.nextAgent

theorem Steps.trans (hFirst : s.Steps s') (hThen : s'.Steps s'') : s.Steps s'' where
  byHand := hFirst.byHand.trans hThen.byHand
  timeout_eq := hThen.timeout_eq.trans hFirst.timeout_eq
  named hName := by
    rcases hThen.named hName with hOld | ⟨hLe, hLt⟩
    · exact (hFirst.named hOld).imp_right fun ⟨hLe, hLt⟩ =>
        ⟨hLe, Nat.lt_of_lt_of_le hLt hThen.byHand.next_le⟩
    · exact Or.inr ⟨hFirst.byHand.next_le.trans hLe, hLt⟩

theorem InOrder.steps (hOrder : s.InOrder) (hSteps : s.Steps s') : s'.InOrder where
  schedule := by
    rw [hSteps.byHand.waiters_eq]
    exact hSteps.byHand.inOrder
  timely := (hSteps.byHand.elapses hOrder.timely).timely
  named hName := by
    rw [hSteps.byHand.waiters_eq]
    rcases hSteps.named hName with hOld | ⟨hLe, hLt⟩
    · obtain ⟨hLt, hNot⟩ := hOrder.named hOld
      exact ⟨Nat.lt_of_lt_of_le hLt hSteps.byHand.next_le, hNot⟩
    · refine ⟨hLt, fun w hw => Nat.ne_of_lt (Nat.lt_of_lt_of_le ?_ hLe)⟩
      exact hOrder.schedule.old w hw

/-- A schedule is changed by hand. -/
theorem Steps.of_byHand {schedule : Schedule} (hByHand : s.schedule.ByHand schedule) :
    s.Steps { s with schedule } :=
  ⟨hByHand, rfl, Or.inl⟩

theorem InOrder.steps_refl (hOrder : s.InOrder) : s.Steps s :=
  .of_byHand ⟨rfl, Nat.le_refl _, rfl, hOrder.schedule⟩

theorem InOrder.steps_aside {l : Ledger} (hOrder : s.InOrder)
    (hRows : l.store.rows = s.schedule.ledger.store.rows)
    (hTransactions : l.store.transactions = s.schedule.ledger.store.transactions)
    (hNow : l.now = s.schedule.ledger.now) :
    s.Steps { s with schedule := { s.schedule with ledger := l } } :=
  .of_byHand (hOrder.schedule.byHand_aside hRows hTransactions hNow)

theorem InOrder.steps_erase (hOrder : s.InOrder) (name : String) :
    s.Steps { s with transactions := s.transactions.erase name } where
  byHand := hOrder.steps_refl.byHand
  timeout_eq := rfl
  named hName := by
    refine Or.inl ?_
    rw [Table.get?_erase] at hName
    split at hName
    · cases hName
    · exact hName

/-! ## Calls -/

/-- A call by hand, of which it is known what becomes of the schedule if it is answered. -/
theorem InOrder.steps_call (hOrder : s.InOrder) (env : Surroundings) (a : Agent) (c : Call)
    (hReplied : ∀ {answer l woken}, s.schedule.ledger.execute env a c = .replied answer l woken →
      (s.schedule.wake l woken).InOrder none [] s.schedule.waiters) :
    s.Steps (s.byHand env a c).1 := by
  have hKeyed := Ledger.execute_keyed (l := s.schedule.ledger) (a := a) (c := c) env
  unfold byHand
  cases hOutcome : s.schedule.ledger.execute env a c with
  | replied answer l woken =>
    rw [hOutcome] at hKeyed
    exact .of_byHand ⟨hKeyed.1, Nat.le_refl _, rfl, hReplied hOutcome⟩
  | waiting row l => exact hOrder.steps_refl
  | faulted f l =>
    obtain rfl := Ledger.execute_faulted hOutcome
    exact hOrder.steps_refl

/-- A call outside of transactions. -/
theorem InOrder.steps_once (hOrder : s.InOrder) (env : Surroundings) (hFits : c.fits false = true)
    (hShut : ∀ answer, c.leavesOpen false answer = false) :
    s.Steps (s.byHand env s.schedule.nextAgent c).1 :=
  hOrder.steps_call env _ c fun hReplied => hOrder.schedule.executed_once hFits hShut hReplied

/-- A call within a named transaction. -/
theorem InOrder.steps_within (hOrder : s.InOrder) (env : Surroundings) (name : String)
    (hFits : c.fits true = true) : s.Steps (s.within env name c).1 := by
  unfold within
  cases hName : s.transactions.get? name with
  | none => exact hOrder.steps_refl
  | some a =>
    obtain ⟨hOld, hNot⟩ := hOrder.named hName
    exact hOrder.steps_call env a c fun hReplied =>
      hOrder.schedule.executed hOld hNot hFits nofun hReplied

theorem InOrder.steps_closed (hOrder : s.InOrder) (env : Surroundings) (name : String)
    (hFits : c.fits true = true) : s.Steps (closed name (s.within env name c)).1 := by
  have hWithin := hOrder.steps_within env name hFits
  exact hWithin.trans ((hOrder.steps hWithin).steps_erase name)

theorem InOrder.steps_dropNamed (hOrder : s.InOrder) (name : String) :
    s.Steps (s.dropNamed name) := by
  unfold dropNamed
  cases hName : s.transactions.get? name with
  | none => exact hOrder.steps_refl
  | some a =>
    obtain ⟨hOld, hNot⟩ := hOrder.named hName
    have hDropped : s.Steps { s with schedule := s.schedule.abandon a none } :=
      .of_byHand ⟨rfl, Nat.le_refl _, rfl, hOrder.schedule.abandon_idle hOld hNot⟩
    exact hDropped.trans ((hOrder.steps hDropped).steps_erase name)

/-- A new agent is nobody's. -/
theorem InOrder.steps_newAgent (hOrder : s.InOrder) : s.Steps s.newAgent.2 :=
  .of_byHand ⟨rfl, Nat.le_succ _, rfl, hOrder.schedule.newAgent⟩

theorem InOrder.steps_begin (hOrder : s.InOrder) (env : Surroundings) (name : String) :
    s.Steps (s.act env (.begin name)).1 := by
  have hDropped := hOrder.steps_dropNamed name
  have hOrder' := hOrder.steps hDropped
  have hNew := hDropped.trans hOrder'.steps_newAgent
  have hFits : Call.begin.fits false = true := rfl
  have hReplied : ∀ (l : Ledger) (a : Agent),
      l.execute env a .begin = .replied (.ok ()) { l with store := l.store.begin a } [] :=
    fun _ _ => rfl
  have hBegun := hOrder'.schedule.newAgent.executed (Nat.lt_succ_self _)
    (fun w hw => Nat.ne_of_lt (hOrder'.schedule.old w hw)) hFits
    (fun _ => hOrder'.schedule.fresh _ (Nat.le_refl _)) (hReplied _ _)
  rw [Schedule.wake_nil] at hBegun
  refine ⟨hNew.byHand.trans ⟨rfl, Nat.le_refl _, rfl, hBegun⟩, hNew.timeout_eq, fun hName => ?_⟩
  rw [act, newAgent] at hName
  simp only [act.still, Table.get?_put] at hName
  split at hName
  · rw [← Option.some.inj hName]
    exact Or.inr ⟨hDropped.byHand.next_le, Nat.lt_succ_self _⟩
  · exact (hDropped.named hName).imp_right (And.imp_right Nat.lt_succ_of_lt)

theorem InOrder.steps_finishNamed (hOrder : s.InOrder) (env : Surroundings) (name : String)
    (outcome : Result Unit) : s.Steps (s.finishNamed env name outcome).1 := by
  unfold finishNamed
  cases hName : s.transactions.get? name with
  | none => exact hOrder.steps_refl
  | some a =>
    obtain ⟨hOld, hNot⟩ := hOrder.named hName
    obtain ⟨c, hFits, answer, l, woken, hReplied, r, hDriven⟩ :=
      Ledger.drive_finish env s.schedule.ledger a outcome
    have hKeyed : (s.schedule.ledger.perform env a c).Keyed s.schedule.ledger a :=
      Ledger.perform_keyed
    rw [hReplied] at hKeyed
    have hDone := hOrder.schedule.performed hOld hNot hFits nofun hReplied
    have hSteps : s.Steps { s with schedule := s.schedule.wake l woken } :=
      .of_byHand ⟨hKeyed.1, Nat.le_refl _, rfl, hDone⟩
    have hClosed := hSteps.trans ((hOrder.steps hSteps).steps_erase name)
    simp only [hDriven]
    cases r with
    | ok value => exact hClosed
    | error e => exact hClosed

/-! ## Steps -/

/-- What is done by hand keeps a session in order. -/
theorem InOrder.steps_act (hOrder : s.InOrder) (env : Surroundings) {x : SessionStep}
    (hByHand : x.IsByHand) : s.Steps (s.act env x).1 := by
  cases x with
  | command | create | topup | transfer | spawn | advance => cases hByHand
  | insert w => exact hOrder.steps_once env (c := .insert w) rfl fun _ => rfl
  | get wallet => exact hOrder.steps_once env (c := .get wallet) rfl fun _ => rfl
  | list user => exact hOrder.steps_once env (c := .list user) rfl fun _ => rfl
  | claim key => exact hOrder.steps_once env (c := .claim key) rfl fun _ => rfl
  | release key => exact hOrder.steps_once env (c := .release key) rfl fun _ => rfl
  | add wallet amount =>
    have hOrder' := hOrder.steps hOrder.steps_newAgent
    refine hOrder.steps_newAgent.trans (hOrder'.steps_call env _ _ fun hReplied => ?_)
    have hFits : (Call.add wallet amount).fits false = true := rfl
    exact hOrder'.schedule.executed (Nat.lt_succ_self _)
      (fun w hw => Nat.ne_of_lt (hOrder.schedule.old w hw)) hFits
      (fun _ => hOrder.schedule.fresh _ (Nat.le_refl _)) hReplied
  | lock | addWithin => exact hOrder.steps_within env _ rfl
  | commit | rollback => exact hOrder.steps_closed env _ rfl
  | begin name => exact hOrder.steps_begin env name
  | drop name =>
    rw [act]
    split
    · exact hOrder.steps_dropNamed name
    · exact hOrder.steps_refl
  | finish name outcome => exact hOrder.steps_finishNamed env name outcome
  | total | lockOrder =>
    rw [act]
    split <;> exact hOrder.steps_refl
  | size | keysSize => exact hOrder.steps_refl
  | failUpdates wallet =>
    have hArm : (s.schedule.ledger.store.arm wallet).rows = s.schedule.ledger.store.rows ∧
        (s.schedule.ledger.store.arm wallet).transactions =
          s.schedule.ledger.store.transactions := by
      unfold Store.arm
      split <;> exact ⟨rfl, rfl⟩
    exact hOrder.steps_aside hArm.1 hArm.2 rfl
  | purge | fail => exact hOrder.steps_aside rfl rfl rfl

end Session

end Purse
