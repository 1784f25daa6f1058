import Purse.Proofs.Session.Turns

/-!
# What calls keep, sessions keep

A property of ledgers that calls of some kind keep is kept by all commands that make only such calls, in
whatever order a schedule lets them go on, waits for them, cuts them short or drops them; and their
results are such as their programs may come to. So whoever wants to know that a session keeps something
has to look at single calls only.

## Definitions

* `Program.Obeys`: a program makes calls of a kind only, and comes to results of a kind only.
* `Ledger.Keeping`: calls of a kind keep a property of ledgers.
* `Schedule.Obeys`: a schedule with the property, in which commands of the kind wait.

## Results

* `Keeping.drive`, `Keeping.driveOn`: programs keep it.
* `Keeping.settle`, `Keeping.execute`, `Keeping.spawn`: schedules keep it.
* `Keeping.byHand`, `Keeping.finishNamed`: so does what is done by hand in a session.
-/

namespace Purse

-- ---------------------------------------------------------------------------
-- Programs of a kind
-- ---------------------------------------------------------------------------

section Programs

variable {α β : Type} {C : Call → Prop}

/-- The program makes calls of a kind only, and comes to results of a kind only. -/
def Program.Obeys (C : Call → Prop) (R : Result α → Prop) : Program α → Prop
  | .done r => R r
  | .call c next => C c ∧ ∀ answer, (next answer).Obeys C R

/-- A program is of a kind if its calls are, and all that comes after it. -/
theorem Program.Calls.obeys_bind {p : Program α} {f : α → Program β} {R : Result β → Prop}
    (hCalls : p.Calls C) (hError : ∀ e, R (.error e)) (hNext : ∀ a, (f a).Obeys C R) :
    (p.bind f).Obeys C R := by
  induction p with
  | done r =>
    cases r with
    | error e => exact hError e
    | ok a => exact hNext a
  | call c next ih => exact ⟨hCalls.1, fun answer => ih answer (hCalls.2 answer)⟩

theorem Program.Calls.obeys {p : Program α} (hCalls : p.Calls C) : p.Obeys C fun _ => True := by
  induction p with
  | done r => trivial
  | call c next ih => exact ⟨hCalls.1, fun answer => ih answer (hCalls.2 answer)⟩

end Programs

-- ---------------------------------------------------------------------------
-- Calls
-- ---------------------------------------------------------------------------

/-- Calls of a kind keep a property of ledgers, which is one of rows, transactions and the mint, and so
does leaving the ledger at any point. -/
structure Ledger.Keeping (env : Surroundings) (C : Call → Prop) (I : Ledger → Prop) : Prop where
  aside : ∀ {l l' : Ledger}, l'.store.rows = l.store.rows →
    l'.store.transactions = l.store.transactions → l'.mint = l.mint → I l → I l'
  execute : ∀ {l : Ledger} {a : Agent} {c : Call}, C c → I l → I (l.execute env a c).ledger
  resume : ∀ {l : Ledger} {a : Agent} {c : Call}, C c → I l → I (l.resume env a c).ledger
  drop : ∀ {l : Ledger} (a : Agent), I l → I { l with store := (l.store.drop a).1 }
  withdraw : ∀ {l : Ledger} (a : Agent) (id : WalletId), I l →
    I { l with store := (l.store.withdraw a id).1 }

namespace Progress

variable {α : Type} {C : Call → Prop} {R : Result α → Prop} {I : Ledger → Prop}

/-- A program of a kind that has left a property of ledgers as it was. -/
def Obeys (C : Call → Prop) (R : Result α → Prop) (I : Ledger → Prop) : Progress α → Prop
  | .ended r l _ => R r ∧ I l
  | .waiting c next _ l _ => (Program.call c next).Obeys C R ∧ I l
  | .faulted _ l _ => I l

end Progress

namespace Ledger.Keeping

variable {α : Type} {env : Surroundings} {C : Call → Prop} {R : Result α → Prop}
  {I : Ledger → Prop} {l : Ledger} {a : Agent} {c : Call}

theorem record (hKeeping : Keeping env C I) (hHere : I l) (a : Agent) (c : Call) :
    I (l.record a c) := by
  unfold Ledger.record
  split
  · exact hKeeping.aside (l := l) rfl rfl rfl hHere
  · exact hHere

theorem refuse (hKeeping : Keeping env C I) (hHere : I l) (a : Agent) (c : Call) (reason : String) :
    I (l.refuse a c reason).ledger := by
  unfold Ledger.refuse
  split
  · exact hKeeping.drop a hHere
  · exact hKeeping.drop a hHere
  · exact hHere

theorem perform (hKeeping : Keeping env C I) (hCall : C c) (hHere : I l) :
    I (l.perform env a c).ledger := by
  have hRecorded := hKeeping.record hHere a c
  have hUsed : ∀ m, I { l.record a c with failing := (l.record a c).failing.erase m } := fun m =>
    hKeeping.aside (l := l.record a c) rfl rfl rfl hRecorded
  unfold Ledger.perform
  simp only
  split
  · exact hKeeping.execute hCall hRecorded
  · split
    · exact hKeeping.refuse (hUsed _) a c _
    · exact hKeeping.execute hCall hRecorded

/-- A program of the kind keeps the property, however far it gets. -/
theorem drive {p : Program α} (hKeeping : Keeping env C I) (hObeys : p.Obeys C R) (hHere : I l)
    (a : Agent) (woken : List Agent) : (l.drive env a p woken).Obeys C R I := by
  induction p generalizing l woken with
  | done r => exact ⟨hObeys, hHere⟩
  | call c next ih =>
    have hThere : I (l.perform env a c).ledger := hKeeping.perform hObeys.1 hHere
    unfold Ledger.drive
    cases hOutcome : l.perform env a c with
    | replied answer l' others =>
      rw [hOutcome] at hThere
      exact ih answer (hObeys.2 answer) hThere _
    | waiting row l' =>
      rw [hOutcome] at hThere
      exact ⟨hObeys, hThere⟩
    | faulted f l' =>
      rw [hOutcome] at hThere
      exact hThere

/-- So does one that goes on after it has waited. -/
theorem driveOn {next : Result c.Answer → Program α} (hKeeping : Keeping env C I)
    (hObeys : (Program.call c next).Obeys C R) (hHere : I l) (a : Agent) :
    (l.driveOn env a c next).Obeys C R I := by
  have hThere : I (l.resume env a c).ledger := hKeeping.resume hObeys.1 hHere
  unfold Ledger.driveOn
  cases hOutcome : l.resume env a c with
  | replied answer l' woken =>
    rw [hOutcome] at hThere
    exact hKeeping.drive (hObeys.2 answer) hThere a woken
  | waiting row l' =>
    rw [hOutcome] at hThere
    exact ⟨hObeys, hThere⟩
  | faulted f l' =>
    rw [hOutcome] at hThere
    exact hThere

theorem abandon (hKeeping : Keeping env C I) (hHere : I l) (a : Agent) (row : Option WalletId) :
    I (l.abandon a row).1 := by
  cases row with
  | none => exact hKeeping.drop a hHere
  | some id => exact hKeeping.drop a (hKeeping.withdraw a id hHere)

end Ledger.Keeping

-- ---------------------------------------------------------------------------
-- Schedules
-- ---------------------------------------------------------------------------

/-- A command that waits is of the kind. -/
def Waiter.Obeys (C : Call → Prop) (R : Result Reply → Prop) (w : Waiter) : Prop :=
  (Program.call w.call w.next).Obeys C R

/-- The result of a command is of the kind, if it has come to one. -/
def Ending.Obeys (R : Result Reply → Prop) : Ending → Prop
  | .result r => R r
  | .fault _ => True

/-- A schedule with the property, in which commands of the kind wait. -/
structure Schedule.Obeys (C : Call → Prop) (R : Result Reply → Prop) (I : Ledger → Prop)
    (s : Schedule) : Prop where
  ledger : I s.ledger
  waiters : ∀ w ∈ s.waiters, w.Obeys C R

/-- What becomes of a command of the kind. -/
def Schedule.Turn.Obeys (C : Call → Prop) (R : Result Reply → Prop) (I : Ledger → Prop) :
    Schedule.Turn → Prop
  | .ended e s => e.Obeys R ∧ s.Obeys C R I
  | .waiting w s => w.Obeys C R ∧ s.Obeys C R I

namespace Ledger.Keeping

open Schedule

variable {env : Surroundings} {C : Call → Prop} {R : Result Reply → Prop} {I : Ledger → Prop}
  {s : Schedule} {w : Waiter}

theorem wake {l : Ledger} (hObeys : s.Obeys C R I) (hHere : I l) (woken : List Agent) :
    (s.wake l woken).Obeys C R I := ⟨hHere, hObeys.waiters⟩

theorem abandoned (hKeeping : Keeping env C I) (hObeys : s.Obeys C R I) (a : Agent)
    (row : Option WalletId) : (s.abandon a row).Obeys C R I :=
  wake hObeys (hKeeping.abandon hObeys.ledger a row) _

theorem moveClock (hKeeping : Keeping env C I) (hObeys : s.Obeys C R I) (instant : Instant) :
    (s.moveClock instant).Obeys C R I :=
  ⟨hKeeping.aside (l := s.ledger) rfl rfl rfl hObeys.ledger, hObeys.waiters⟩

theorem movedFor (hKeeping : Keeping env C I) (hObeys : s.Obeys C R I) (w : Waiter) :
    (s.movedFor w).Obeys C R I := by
  unfold Schedule.movedFor
  split
  · exact hObeys
  · split
    · exact hKeeping.moveClock hObeys _
    · exact hObeys

/-! ## A turn -/

theorem turn (hKeeping : Keeping env C I) (hCancelled : R (.error .cancelled))
    (hObeys : s.Obeys C R I) (a : Agent) (deadline : Option Instant) {p : Progress Reply}
    (hProgress : p.Obeys C R I) : (s.turn a deadline p).Obeys C R I := by
  cases p with
  | ended r l woken => exact ⟨hProgress.1, wake hObeys hProgress.2 woken⟩
  | faulted f l woken => exact ⟨trivial, hKeeping.abandoned (wake hObeys hProgress woken) a none⟩
  | waiting c next row l woken =>
    have hWoken : (s.wake l woken).Obeys C R I := wake hObeys hProgress.2 woken
    unfold Schedule.turn
    simp only
    split
    · exact ⟨hCancelled, hKeeping.abandoned hWoken a (some row)⟩
    · exact ⟨hProgress.1, hWoken⟩

theorem poll (hKeeping : Keeping env C I) (hCancelled : R (.error .cancelled))
    (hObeys : s.Obeys C R I) (hWaiter : w.Obeys C R) : (s.poll env w).Obeys C R I := by
  unfold Schedule.poll
  split
  · exact hKeeping.turn hCancelled hObeys w.agent w.deadline
      (hKeeping.driveOn hWaiter hObeys.ledger w.agent)
  · split
    · exact ⟨hCancelled, hKeeping.abandoned hObeys w.agent (some w.row)⟩
    · exact ⟨hWaiter, hObeys⟩

theorem replaceWaiter (hObeys : s.Obeys C R I) (a : Agent) {w? : Option Waiter}
    (hNew : ∀ w ∈ w?, w.Obeys C R) :
    Schedule.Obeys C R I { s with waiters := Schedule.replaceWaiter s.waiters a w? } := by
  refine ⟨hObeys.ledger, fun v hMem => ?_⟩
  obtain ⟨w, hOld, hKept⟩ := List.mem_filterMap.mp hMem
  split at hKept
  · exact hNew v hKept
  · exact Option.some.inj hKept ▸ hObeys.waiters w hOld

/-! ## Turn after turn -/

theorem serve (hKeeping : Keeping env C I) (hCancelled : R (.error .cancelled))
    (hObeys : s.Obeys C R I) (a : Agent) :
    (s.serve env a).1.Obeys C R I ∧ ∀ e ∈ (s.serve env a).2, e.2.Obeys R := by
  unfold Schedule.serve
  cases hFind : s.waiters.find? (·.agent = a) with
  | none => exact ⟨hObeys, by rintro _ ⟨⟩⟩
  | some w =>
    have hTurn := hKeeping.poll hCancelled hObeys (hObeys.waiters w (List.mem_of_find?_eq_some hFind))
    cases hPoll : s.poll env w with
    | ended e s' =>
      rw [hPoll] at hTurn
      simp only [hPoll]
      refine ⟨replaceWaiter hTurn.2 a (by rintro _ ⟨⟩), fun x hMem => ?_⟩
      rw [List.mem_singleton.mp hMem]
      exact hTurn.1
    | waiting w' s' =>
      rw [hPoll] at hTurn
      simp only [hPoll]
      refine ⟨replaceWaiter hTurn.2 a ?_, by rintro _ ⟨⟩⟩
      rintro _ ⟨⟩
      exact hTurn.1

theorem run (hKeeping : Keeping env C I) (hCancelled : R (.error .cancelled))
    (hObeys : s.Obeys C R I) (turns : Nat) :
    (Schedule.run env turns s).1.Obeys C R I ∧ ∀ e ∈ (Schedule.run env turns s).2, e.2.Obeys R := by
  induction turns generalizing s with
  | zero => exact ⟨hObeys, by rintro _ ⟨⟩⟩
  | succ turns ih =>
    unfold Schedule.run
    cases hReady : s.ready with
    | nil => exact ⟨hObeys, by rintro _ ⟨⟩⟩
    | cons a rest =>
      have hRest : Schedule.Obeys C R I { s with ready := rest } := ⟨hObeys.ledger, hObeys.waiters⟩
      obtain ⟨hServed, hFirst⟩ := hKeeping.serve hCancelled hRest a
      obtain ⟨hOn, hLater⟩ := ih hServed
      exact ⟨hOn, List.forall_mem_append.mpr ⟨hFirst, hLater⟩⟩

/-- Commands of the kind that go on keep the property. -/
theorem settle (hKeeping : Keeping env C I) (hCancelled : R (.error .cancelled))
    (hObeys : s.Obeys C R I) :
    (s.settle env).1.Obeys C R I ∧ ∀ e ∈ (s.settle env).2, e.2.Obeys R :=
  hKeeping.run hCancelled hObeys _

theorem await (hKeeping : Keeping env C I) (hCancelled : R (.error .cancelled))
    (hObeys : s.Obeys C R I) (hWaiter : w.Obeys C R) (moves : Nat) :
    (Schedule.await env moves s w).1.Obeys C R I ∧ (Schedule.await env moves s w).2.1.Obeys R ∧
      ∀ e ∈ (Schedule.await env moves s w).2.2, e.2.Obeys R := by
  induction moves generalizing s w with
  | zero =>
    exact ⟨hKeeping.abandoned hObeys w.agent (some w.row), hCancelled, by rintro _ ⟨⟩⟩
  | succ moves ih =>
    obtain ⟨hSettled, hEnded⟩ := hKeeping.settle hCancelled hObeys
    have hTurn := hKeeping.poll hCancelled (hKeeping.movedFor hSettled w) hWaiter
    rw [await_succ]
    cases hPoll : ((s.settle env).1.movedFor w).poll env w with
    | ended e s' =>
      rw [hPoll] at hTurn
      exact ⟨hTurn.2, hTurn.1, hEnded⟩
    | waiting w' s' =>
      rw [hPoll] at hTurn
      obtain ⟨hOn, hEnding, hLater⟩ := ih hTurn.2 hTurn.1
      exact ⟨hOn, hEnding, List.forall_mem_append.mpr ⟨hEnded, hLater⟩⟩

/-! ## New commands -/

theorem start {p : Program Reply} (hKeeping : Keeping env C I) (hCancelled : R (.error .cancelled))
    (hObeys : s.Obeys C R I) (hProgram : p.Obeys C R) (deadline : Option Instant) :
    (s.start env p deadline).Obeys C R I := by
  have hNext : Schedule.Obeys C R I { s with nextAgent := s.nextAgent + 1 } :=
    ⟨hObeys.ledger, hObeys.waiters⟩
  exact hKeeping.turn hCancelled hNext s.nextAgent deadline
    (hKeeping.drive hProgram hObeys.ledger s.nextAgent [])

/-- A command of the kind that is run to its end keeps the property. -/
theorem executed {p : Program Reply} (hKeeping : Keeping env C I)
    (hCancelled : R (.error .cancelled)) (hObeys : s.Obeys C R I) (hProgram : p.Obeys C R)
    (deadline : Option Instant) :
    (s.execute env p deadline).1.Obeys C R I ∧ (s.execute env p deadline).2.1.Obeys R ∧
      ∀ e ∈ (s.execute env p deadline).2.2, e.2.Obeys R := by
  have hTurn := hKeeping.start hCancelled hObeys hProgram deadline
  unfold Schedule.execute
  cases hStart : s.start env p deadline with
  | ended e s' =>
    rw [hStart] at hTurn
    exact ⟨hTurn.2, hTurn.1, by rintro _ ⟨⟩⟩
  | waiting w s' =>
    rw [hStart] at hTurn
    exact hKeeping.await hCancelled hTurn.2 hTurn.1 _

/-- So does one that is started in the background. -/
theorem spawn {p : Program Reply} (hKeeping : Keeping env C I) (hCancelled : R (.error .cancelled))
    (hObeys : s.Obeys C R I) (hProgram : p.Obeys C R) (deadline : Instant) :
    (s.spawn env p deadline).1.Obeys C R I ∧ ∀ e ∈ (s.spawn env p deadline).2.2, e.Obeys R := by
  have hTurn := hKeeping.start hCancelled hObeys hProgram (some deadline)
  unfold Schedule.spawn
  cases hStart : s.start env p (some deadline) with
  | ended e s' =>
    rw [hStart] at hTurn
    refine ⟨hTurn.2, ?_⟩
    rintro _ ⟨⟩
    exact hTurn.1
  | waiting w s' =>
    rw [hStart] at hTurn
    refine ⟨⟨hTurn.2.ledger, fun v hMem => ?_⟩, by rintro _ ⟨⟩⟩
    rcases List.mem_append.mp hMem with hOld | hNew
    · exact hTurn.2.waiters v hOld
    · rw [List.mem_singleton.mp hNew]
      exact hTurn.1

end Ledger.Keeping

-- ---------------------------------------------------------------------------
-- Sessions
-- ---------------------------------------------------------------------------

namespace Ledger.Keeping

variable {env : Surroundings} {C : Call → Prop} {R : Result Reply → Prop} {I : Ledger → Prop}
  {s : Session} {c : Call}

theorem byHand (hKeeping : Keeping env C I) (hObeys : s.schedule.Obeys C R I) (a : Agent)
    (hCall : C c) : (s.byHand env a c).1.schedule.Obeys C R I := by
  have hThere : I (s.schedule.ledger.execute env a c).ledger :=
    hKeeping.execute hCall hObeys.ledger
  unfold Session.byHand
  cases hOutcome : s.schedule.ledger.execute env a c with
  | replied r l woken =>
    rw [hOutcome] at hThere
    exact wake hObeys hThere woken
  | waiting row l => exact hObeys
  | faulted f l =>
    rw [hOutcome] at hThere
    exact ⟨hThere, hObeys.waiters⟩

theorem within (hKeeping : Keeping env C I) (hObeys : s.schedule.Obeys C R I) (name : String)
    (hCall : C c) : (s.within env name c).1.schedule.Obeys C R I := by
  unfold Session.within
  split
  · exact hKeeping.byHand hObeys _ hCall
  · exact hObeys

theorem dropNamed (hKeeping : Keeping env C I) (hObeys : s.schedule.Obeys C R I) (name : String) :
    (s.dropNamed name).schedule.Obeys C R I := by
  unfold Session.dropNamed
  split
  · exact hKeeping.abandoned hObeys _ none
  · exact hObeys

theorem finishNamed (hKeeping : Keeping env C I) (hObeys : s.schedule.Obeys C R I)
    (hCommit : C .commit) (hRollback : C .rollback) (name : String) (outcome : Result Unit) :
    (s.finishNamed env name outcome).1.schedule.Obeys C R I := by
  unfold Session.finishNamed
  split
  · exact hObeys
  · next a _ =>
    have hDriven := hKeeping.drive (calls_finish hCommit hRollback outcome).obeys hObeys.ledger a []
    simp only
    split
    · next l woken hProgress =>
      rw [hProgress] at hDriven
      exact wake hObeys hDriven.2 woken
    · next e l woken hProgress =>
      rw [hProgress] at hDriven
      exact wake hObeys hDriven.2 woken
    · exact hObeys
    · next f l woken hProgress =>
      rw [hProgress] at hDriven
      exact wake hObeys hDriven woken

end Ledger.Keeping

end Purse
