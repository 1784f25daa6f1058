import Purse.Proofs.Result
import Purse.Proofs.Session.Order

/-!
# Who is cancelled

No call is answered that a deadline has passed, and no program says so by itself. So a command that
ends cancelled was cut by the schedule, and that happens only to one that waits and whose deadline has
come. Letting commands run moves no deadline, and no clock.

## Definitions

* `Timely`, `Program.Timely`: a result, and a program, that does not say that a deadline has passed.
* `Schedule.Overdue`: an agent waits though its deadline has come.
* `Schedule.Passes`: what becomes of a schedule while commands are let run.

## Results

* `Command.timely`: no command says by itself that its deadline has passed.
* `Schedule.passes_settle`: who is cancelled while commands are let run was overdue.
* `Schedule.waits_of_turn`: who is cancelled at once had to wait with its deadline come.
-/

namespace Purse

/-- A result that does not say that a deadline has passed. -/
abbrev Timely {α : Type} (r : Result α) : Prop := FailsOnly (· ≠ .cancelled) r

/-- A program that does not say by itself that a deadline has passed. -/
def Program.Timely {α : Type} : Program α → Prop
  | .done r => Purse.Timely r
  | .call c next => ∀ answer : Result c.Answer, Purse.Timely answer → (next answer).Timely

-- ---------------------------------------------------------------------------
-- Commands
-- ---------------------------------------------------------------------------

namespace Stage

variable {legs : Legs} {stage : Stage}

/-- A transfer does not go on to say, or say, that a deadline has passed. -/
def Timely : Stage ⊕ Result Unit → Prop
  | .inl (undoing e) => e ≠ .cancelled
  | .inl _ => True
  | .inr result => Purse.Timely result

theorem timely_ofPair (legs : Legs) (wallets : Option Wallet × Option Wallet) :
    Timely (.inl (ofPair legs wallets)) := by
  unfold ofPair
  split
  · split
    · rintro ⟨⟩
    · trivial
  · rintro ⟨⟩

theorem timely_after {answer : Result (stage.call legs).Answer} (hStage : Timely (.inl stage))
    (hAnswer : Purse.Timely answer) : Timely (stage.after legs answer) := by
  cases stage with
  | lockingSecond first =>
    cases answer with
    | error e => exact hAnswer e rfl
    | ok second => exact timely_ofPair legs _
  | opening =>
    cases answer with
    | error e => exact hAnswer
    | ok opened => trivial
  | lockingFirst | debiting | crediting =>
    cases answer with
    | error e => exact hAnswer e rfl
    | ok value => trivial
  | committing => exact hAnswer
  | undoing e => exact FailsOnly.error hStage

theorem timely_program (legs : Legs) (stage : Stage) (hStage : Timely (.inl stage)) :
    (stage.program legs).Timely := by
  induction stage using Stage.induction legs with
  | hStep stage ih =>
    rw [program_eq]
    intro answer hAnswer
    have hNext := timely_after hStage hAnswer
    show (rest legs (stage.after legs answer)).Timely
    cases hAfter : stage.after legs answer with
    | inl stage' =>
      rw [hAfter] at hNext
      exact ih answer stage' hAfter hNext
    | inr result =>
      rw [hAfter] at hNext
      exact hNext.map

end Stage

theorem timely_transferring (request : Option Transfer) : (transferring request).Timely := by
  cases request with
  | none => exact FailsOnly.error (by rintro ⟨⟩)
  | some r =>
    rw [transferring_some]
    cases hCheck : r.check with
    | ok legs => exact Stage.opening.timely_program legs trivial
    | error e =>
      refine FailsOnly.error ?_
      rintro rfl
      cases r.check_failsOnly _ hCheck

theorem NewWallet.timely_check (r : NewWallet) : Timely r.check := by
  unfold check
  split
  · exact FailsOnly.error (by rintro ⟨⟩)
  · split
    · exact FailsOnly.error (by rintro ⟨⟩)
    · exact FailsOnly.ok _

theorem timely_creation (request : Option NewWallet) : (creation request).Timely := by
  cases request with
  | none => exact FailsOnly.error (by rintro ⟨⟩)
  | some r =>
    rw [creation_some]
    cases hCheck : r.check with
    | error e => exact FailsOnly.error (r.timely_check e hCheck)
    | ok user =>
      intro id hId
      cases id with
      | error e => exact FailsOnly.error (hId e rfl)
      | ok id =>
        intro now hNow
        cases now with
        | error e => exact FailsOnly.error (hNow e rfl)
        | ok now => exact fun answer hAnswer => hAnswer.map

theorem Topup.timely_check (r : Topup) : Timely r.check := by
  unfold check
  repeat' split
  all_goals first
    | exact FailsOnly.error (by rintro ⟨⟩)
    | exact FailsOnly.ok _

theorem Topup.timely_applying (r : Topup) : r.applying.Timely := by
  unfold applying
  cases hCheck : r.check with
  | ok wallet => exact fun answer hAnswer => hAnswer.map
  | error e => exact fun answer _ => FailsOnly.error (r.timely_check e hCheck)

theorem timely_toppingUp (request : Option Topup) : (toppingUp request).Timely := by
  cases request with
  | none => exact FailsOnly.error (by rintro ⟨⟩)
  | some r =>
    rw [toppingUp_some]
    split
    · exact FailsOnly.error (by rintro ⟨⟩)
    · intro inUse hInUse
      rcases inUse with e | _ | _
      · exact FailsOnly.error (hInUse e rfl)
      · exact r.timely_applying
      · exact FailsOnly.error (by rintro ⟨⟩)

/-- No command says by itself that its deadline has passed. -/
theorem Command.timely (c : Command) : c.program.Timely := by
  cases c with
  | createWallet userId =>
    rw [Command.program]
    generalize some (NewWallet.forUser userId) = request
    exact timely_creation request
  | topup r =>
    rw [Command.program]
    generalize some r = request
    exact timely_toppingUp request
  | transfer r =>
    rw [Command.program]
    generalize some r = request
    exact timely_transferring request
  | wallet walletId =>
    rw [program_wallet]
    cases WalletId.parseTrimmed? walletId with
    | none => exact FailsOnly.error (by rintro ⟨⟩)
    | some id => exact fun answer hAnswer => hAnswer.map
  | userWallets userId =>
    rw [program_userWallets]
    cases UserId.parseTrimmed? userId with
    | none => exact FailsOnly.error (by rintro ⟨⟩)
    | some user => exact fun answer hAnswer => hAnswer.map

-- ---------------------------------------------------------------------------
-- Calls
-- ---------------------------------------------------------------------------

theorem Wallet.timely_adjust (w : Wallet) (amount : Decimal) (now : Timestamp) :
    Timely (w.adjust amount now) := by
  unfold adjust
  repeat' split
  all_goals first
    | exact FailsOnly.error (by rintro ⟨⟩)
    | exact FailsOnly.ok _

/-- If the call is answered, no deadline has passed by the answer. -/
def Store.Step.Timely {α : Type} : Store.Step α → Prop
  | .replied answer _ _ => Purse.Timely answer
  | .waiting _ _ => True

/-- If the call is answered, no deadline has passed by the answer. -/
def Outcome.Timely {c : Call} : Outcome c → Prop
  | .replied answer _ _ => Purse.Timely answer
  | .waiting _ _ | .faulted _ _ => True

namespace Store

variable {s : Store} {a : Agent} {id : WalletId} {row : Row} {user : UserId} {amount : Decimal}
  {now : Timestamp}

theorem acquire_timely {α : Type} {granted : Store → Step α} (hGranted : ∀ t, (granted t).Timely) :
    (s.acquire a id row granted).Timely := by
  unfold acquire
  split
  · exact hGranted _
  · trivial

theorem lockGranted_timely : (s.lockGranted a id user).Timely := by
  unfold lockGranted
  split
  · exact FailsOnly.ok _
  · split <;> exact FailsOnly.ok _

theorem lock_timely : (s.lock a id user).Timely := by
  unfold lock
  split
  · exact FailsOnly.ok _
  · split
    · exact FailsOnly.ok _
    · split
      · exact acquire_timely fun _ => lockGranted_timely
      · exact FailsOnly.ok _

theorem addToCopy_timely (w : Wallet) : (s.addToCopy a w amount now).Timely := by
  unfold addToCopy
  cases hAdjust : w.adjust amount now with
  | error e => exact FailsOnly.error (w.timely_adjust amount now e hAdjust)
  | ok w' => exact FailsOnly.ok _

theorem addWithinGranted_timely : (s.addWithinGranted a id amount now).Timely := by
  unfold addWithinGranted
  split
  · exact FailsOnly.error (by rintro ⟨⟩)
  · exact addToCopy_timely _

theorem addWithin_timely : (s.addWithin a id amount now).Timely := by
  unfold addWithin
  split
  · exact FailsOnly.error (by rintro ⟨⟩)
  · split
    · exact addToCopy_timely _
    · split
      · exact FailsOnly.error (by rintro ⟨⟩)
      · exact acquire_timely fun _ => addWithinGranted_timely

theorem addGranted_timely : (s.addGranted id amount now).Timely := by
  unfold addGranted
  split
  · exact FailsOnly.error (by rintro ⟨⟩)
  · next w _ =>
    cases hAdjust : w.adjust amount now with
    | error e => exact FailsOnly.error (w.timely_adjust amount now e hAdjust)
    | ok w' => exact FailsOnly.ok _

theorem add_timely : (s.add a id amount now).Timely := by
  unfold add
  split
  · exact FailsOnly.error (by rintro ⟨⟩)
  · exact acquire_timely fun _ => addGranted_timely

theorem insert_timely (w : Wallet) : Timely (s.insert w) := by
  unfold insert
  split
  · exact FailsOnly.error (by rintro ⟨⟩)
  · exact FailsOnly.ok _

end Store

namespace Ledger

open Store

variable {l : Ledger} {a : Agent} {c : Call}

theorem ofStep_timely (l : Ledger) {step : Store.Step c.Answer} (hStep : step.Timely) :
    (l.ofStep step).Timely := by
  cases step with
  | replied answer s woken => exact hStep
  | waiting row s => trivial

theorem refuse_timely (reason : String) : (l.refuse a c reason).Timely := by
  cases c <;> exact FailsOnly.error (by rintro ⟨⟩)

theorem execute_timely (env : Surroundings) (l : Ledger) (a : Agent) (c : Call) :
    (l.execute env a c).Timely := by
  cases c with
  | lock => exact ofStep_timely l lock_timely
  | addWithin => exact ofStep_timely l.read addWithin_timely
  | add => exact ofStep_timely l.read add_timely
  | insert w =>
    simp only [execute]
    cases hInsert : l.store.insert w with
    | ok s => exact FailsOnly.ok _
    | error e => exact FailsOnly.error (insert_timely w e hInsert)
  | claim key =>
    simp only [execute]
    cases l.keys.claim l.now key with
    | ok answered => exact FailsOnly.ok _
    | error fault => trivial
  | newId =>
    simp only [execute]
    split
    · exact FailsOnly.ok _
    · exact FailsOnly.error (by rintro ⟨⟩)
  | begin | commit | rollback | get | list | release | readClock => exact FailsOnly.ok _

/-- No call is answered that a deadline has passed. -/
theorem perform_timely (env : Surroundings) (l : Ledger) (a : Agent) (c : Call) :
    (l.perform env a c).Timely := by
  obtain ⟨l', -, hEarnest | ⟨reason, hRefused⟩⟩ := perform_eq env l a c
  · rw [hEarnest]
    exact execute_timely env _ a _
  · rw [hRefused]
    exact refuse_timely reason

theorem resume_timely (env : Surroundings) (l : Ledger) (a : Agent) (c : Call) :
    (l.resume env a c).Timely := by
  cases c with
  | lock => exact ofStep_timely l lockGranted_timely
  | addWithin => exact ofStep_timely l.read addWithinGranted_timely
  | add => exact ofStep_timely l.read addGranted_timely
  | _ => exact execute_timely env _ a _

end Ledger

-- ---------------------------------------------------------------------------
-- Programs that are let run
-- ---------------------------------------------------------------------------

namespace Progress

variable {α : Type}

/-- Neither has the program said that a deadline has passed, nor will it. -/
def Timely : Progress α → Prop
  | .ended r _ _ => Purse.Timely r
  | .waiting c next _ _ _ => (Program.call c next).Timely
  | .faulted _ _ _ => True

/-- The program has to wait. -/
def Waits : Progress α → Prop
  | .waiting _ _ _ _ _ => True
  | .ended _ _ _ | .faulted _ _ _ => False

end Progress

namespace Ledger

variable {α : Type}

theorem drive_timely {p : Program α} (hTimely : p.Timely) (env : Surroundings) (l : Ledger)
    (a : Agent) (woken : List Agent) : (l.drive env a p woken).Timely := by
  induction p generalizing l woken with
  | done r => exact hTimely
  | call c next ih =>
    have hAnswer := perform_timely env l a c
    cases hOutcome : l.perform env a c with
    | replied answer l' others =>
      rw [hOutcome] at hAnswer
      simp only [drive, hOutcome]
      exact ih answer (hTimely answer hAnswer) l' _
    | waiting row l' =>
      simp only [drive, hOutcome]
      exact hTimely
    | faulted f l' =>
      simp only [drive, hOutcome]
      trivial

theorem driveOn_timely {c : Call} {next : Result c.Answer → Program α}
    (hTimely : (Program.call c next).Timely) (env : Surroundings) (l : Ledger) (a : Agent) :
    (l.driveOn env a c next).Timely := by
  have hAnswer := resume_timely env l a c
  cases hOutcome : l.resume env a c with
  | replied answer l' woken =>
    rw [hOutcome] at hAnswer
    simp only [driveOn, hOutcome]
    exact drive_timely (hTimely answer hAnswer) env l' a woken
  | waiting row l' =>
    simp only [driveOn, hOutcome]
    exact hTimely
  | faulted f l' =>
    simp only [driveOn, hOutcome]
    trivial

end Ledger

-- ---------------------------------------------------------------------------
-- Turns
-- ---------------------------------------------------------------------------

/-- A waiting command that will not say by itself that its deadline has passed. -/
def Waiter.Timely (w : Waiter) : Prop := (Program.call w.call w.next).Timely

namespace Schedule

variable {env : Surroundings} {s s' s'' : Schedule} {a : Agent} {w : Waiter}
  {deadline : Option Instant} {p : Program Reply} {endings others : List (Agent × Ending)}

/-- No waiting command will say by itself that its deadline has passed. -/
def Timely (s : Schedule) : Prop := ∀ w ∈ s.waiters, w.Timely

/-- A command that was let run waits under its agent and with its deadline, or is over; if it was
cancelled, its deadline has come. -/
def Turn.Fair (a : Agent) (deadline : Option Instant) : Turn → Prop
  | .ended e s => e = .result (.error .cancelled) → deadline.any (· ≤ s.ledger.now) = true
  | .waiting w _ => w.agent = a ∧ w.deadline = deadline ∧ w.Timely

theorem fair_turn (s : Schedule) (a : Agent) (deadline : Option Instant)
    {progress : Progress Reply} (hTimely : progress.Timely) :
    (s.turn a deadline progress).Fair a deadline := by
  cases progress with
  | ended r l woken =>
    intro hCancelled
    cases hCancelled
    exact absurd rfl (hTimely _ rfl)
  | faulted f l woken => rintro ⟨⟩
  | waiting c next row l woken =>
    unfold turn
    simp only
    split
    · next hDue => exact fun _ => hDue
    · exact ⟨rfl, rfl, hTimely⟩

theorem fair_poll (env : Surroundings) (s : Schedule) (hTimely : w.Timely) :
    (s.poll env w).Fair w.agent w.deadline := by
  unfold poll
  split
  · exact fair_turn s _ _ (Ledger.driveOn_timely hTimely env _ _)
  · split
    · next hDue => exact fun _ => hDue
    · exact ⟨rfl, rfl, hTimely⟩

/-- A command that is cancelled at once has to wait, and its deadline has come. -/
theorem waits_of_turn {progress : Progress Reply} (hTimely : progress.Timely)
    (hTurn : s.turn a deadline progress = .ended (.result (.error .cancelled)) s') :
    progress.Waits ∧ deadline.any (· ≤ progress.ledger.now) = true := by
  cases progress with
  | ended r l woken =>
    cases hTurn
    exact absurd rfl (hTimely _ rfl)
  | faulted f l woken => cases hTurn
  | waiting c next row l woken =>
    unfold turn at hTurn
    simp only at hTurn
    split at hTurn
    · next hDue => exact ⟨trivial, hDue⟩
    · cases hTurn

theorem waits_of_waiting {progress : Progress Reply}
    (hTurn : s.turn a deadline progress = .waiting w s') : progress.Waits := by
  cases progress with
  | ended | faulted => cases hTurn
  | waiting => trivial

-- ---------------------------------------------------------------------------
-- Turn after turn
-- ---------------------------------------------------------------------------

/-- An agent waits though its deadline has come. -/
def Overdue (s : Schedule) (a : Agent) : Prop :=
  ∃ w ∈ s.waiters, w.agent = a ∧ w.isDue s.ledger.now = true

/-- Those who wait have waited before, under the same deadlines. -/
def Follows (s s' : Schedule) : Prop :=
  ∀ w ∈ s'.waiters, ∃ v ∈ s.waiters, v.agent = w.agent ∧ v.deadline = w.deadline

theorem Follows.trans (hFirst : s.Follows s') (hThen : s'.Follows s'') : s.Follows s'' := by
  intro w hw
  obtain ⟨v, hv, hAgent, hDeadline⟩ := hThen w hw
  obtain ⟨u, hu, hAgent', hDeadline'⟩ := hFirst v hv
  exact ⟨u, hu, hAgent'.trans hAgent, hDeadline'.trans hDeadline⟩

theorem Follows.overdue (hFollows : s.Follows s') (hNow : s'.ledger.now = s.ledger.now)
    (hOverdue : s'.Overdue a) : s.Overdue a := by
  obtain ⟨w, hw, rfl, hDue⟩ := hOverdue
  obtain ⟨v, hv, hAgent, hDeadline⟩ := hFollows w hw
  refine ⟨v, hv, hAgent, ?_⟩
  unfold Waiter.isDue
  rw [hDeadline, ← hNow]
  exact hDue

/-- Those who have waited wait on, or have ended. -/
def Accounts (s s' : Schedule) (endings : List (Agent × Ending)) : Prop :=
  ∀ w ∈ s.waiters, (∃ v ∈ s'.waiters, v.agent = w.agent) ∨ ∃ e, (w.agent, e) ∈ endings

theorem Accounts.of_waiters_eq (hWaiters : s'.waiters = s.waiters)
    (endings : List (Agent × Ending)) : s.Accounts s' endings :=
  fun w hw => Or.inl ⟨w, hWaiters ▸ hw, rfl⟩

theorem Accounts.trans (hFirst : s.Accounts s' endings) (hThen : s'.Accounts s'' others) :
    s.Accounts s'' (endings ++ others) := by
  intro w hw
  rcases hFirst w hw with ⟨v, hv, hAgent⟩ | ⟨e, hEnded⟩
  · rw [← hAgent]
    exact (hThen v hv).imp_right fun ⟨e, hEnded⟩ => ⟨e, List.mem_append_right _ hEnded⟩
  · exact Or.inr ⟨e, List.mem_append_left _ hEnded⟩

/-- What becomes of a schedule while commands are let run, with the endings that come of it: whoever is
cancelled was overdue. -/
structure Passes (s s' : Schedule) (endings : List (Agent × Ending)) : Prop where
  now_eq : s'.ledger.now = s.ledger.now
  nextAgent_eq : s'.nextAgent = s.nextAgent
  follows : s.Follows s'
  accounts : s.Accounts s' endings
  timely : s'.Timely
  overdue : ∀ a, (a, .result (.error .cancelled)) ∈ endings → s.Overdue a

theorem Passes.relist (hTimely : s.Timely) (ready : List Agent) : s.Passes { s with ready } [] :=
  ⟨rfl, rfl, fun w hw => ⟨w, hw, rfl, rfl⟩, .of_waiters_eq rfl [], hTimely, by rintro _ ⟨⟩⟩

theorem Passes.refl (hTimely : s.Timely) : s.Passes s [] := .relist hTimely s.ready

theorem Passes.trans (hFirst : s.Passes s' endings) (hThen : s'.Passes s'' others) :
    s.Passes s'' (endings ++ others) where
  now_eq := hThen.now_eq.trans hFirst.now_eq
  nextAgent_eq := hThen.nextAgent_eq.trans hFirst.nextAgent_eq
  follows := hFirst.follows.trans hThen.follows
  accounts := hFirst.accounts.trans hThen.accounts
  timely := hThen.timely
  overdue a hMem := by
    rcases List.mem_append.mp hMem with hFirstly | hThereafter
    · exact hFirst.overdue a hFirstly
    · exact hFirst.follows.overdue hFirst.now_eq (hThen.overdue a hThereafter)

theorem mem_replaceWaiter {ws : List Waiter} {w? : Option Waiter} {v : Waiter}
    (hMem : v ∈ replaceWaiter ws a w?) : v ∈ w? ∨ v ∈ ws := by
  obtain ⟨w, hw, hKept⟩ := List.mem_filterMap.mp hMem
  split at hKept
  · exact Or.inl hKept
  · exact Or.inr (Option.some.inj hKept ▸ hw)

theorem mem_replaceWaiter_of_ne {ws : List Waiter} {w? : Option Waiter} {v : Waiter} (hMem : v ∈ ws)
    (hNot : v.agent ≠ a) : v ∈ replaceWaiter ws a w? :=
  List.mem_filterMap.mpr ⟨v, hMem, if_neg hNot⟩

theorem passes_serve (env : Surroundings) (hTimely : s.Timely) (a : Agent) :
    s.Passes (s.serve env a).1 (s.serve env a).2 := by
  unfold serve
  cases hFind : s.waiters.find? (·.agent = a) with
  | none => exact .refl hTimely
  | some w =>
    have hMem := List.mem_of_find?_eq_some hFind
    obtain rfl : w.agent = a := by simpa using List.find?_some hFind
    have hFair := fair_poll env s (hTimely w hMem)
    obtain ⟨hNow, hNext, hWaiters⟩ := keeps_poll env s w
    cases hTurn : s.poll env w with
    | ended e s' =>
      rw [hTurn] at hFair hNow hNext hWaiters
      simp only [hTurn]
      refine ⟨hNow, hNext, fun v hv => ?_, fun v hv => ?_, fun v hv => ?_, fun a hEnded => ?_⟩
      · rcases mem_replaceWaiter hv with hNone | hOld
        · cases hNone
        · exact ⟨v, hWaiters ▸ hOld, rfl, rfl⟩
      · by_cases hSame : v.agent = w.agent
        · exact Or.inr ⟨e, hSame ▸ List.mem_singleton_self _⟩
        · exact Or.inl ⟨v, mem_replaceWaiter_of_ne (hWaiters.symm ▸ hv) hSame, rfl⟩
      · rcases mem_replaceWaiter hv with hNone | hOld
        · cases hNone
        · exact hTimely v (hWaiters ▸ hOld)
      · obtain ⟨rfl, rfl⟩ := Prod.mk.inj (List.mem_singleton.mp hEnded)
        refine ⟨w, hMem, rfl, ?_⟩
        rw [Waiter.isDue, ← hNow]
        exact hFair rfl
    | waiting w' s' =>
      rw [hTurn] at hFair hNow hNext hWaiters
      simp only [hTurn]
      obtain ⟨hAgent, hDeadline, hStill⟩ := hFair
      refine ⟨hNow, hNext, fun v hv => ?_, fun v hv => Or.inl ?_, fun v hv => ?_, by rintro _ ⟨⟩⟩
      · rcases mem_replaceWaiter hv with hNew | hOld
        · cases hNew
          exact ⟨w, hMem, hAgent.symm, hDeadline.symm⟩
        · exact ⟨v, hWaiters ▸ hOld, rfl, rfl⟩
      · by_cases hSame : v.agent = w.agent
        · refine ⟨w', List.mem_filterMap.mpr ⟨w, hWaiters.symm ▸ hMem, if_pos rfl⟩, ?_⟩
          exact hAgent.trans hSame.symm
        · exact ⟨v, mem_replaceWaiter_of_ne (hWaiters.symm ▸ hv) hSame, rfl⟩
      · rcases mem_replaceWaiter hv with hNew | hOld
        · cases hNew
          exact hStill
        · exact hTimely v (hWaiters ▸ hOld)

theorem passes_run (env : Surroundings) (hTimely : s.Timely) (turns : Nat) :
    s.Passes (run env turns s).1 (run env turns s).2 := by
  induction turns generalizing s with
  | zero => exact .refl hTimely
  | succ turns ih =>
    unfold run
    cases hReady : s.ready with
    | nil => exact .refl hTimely
    | cons a rest =>
      have hRest : s.Passes { s with ready := rest } [] := .relist hTimely rest
      have hServed := passes_serve env hRest.timely a
      exact (hRest.trans hServed).trans (ih hServed.timely)

/-- Whoever is cancelled while commands are let run was overdue. -/
theorem passes_settle (env : Surroundings) (hTimely : s.Timely) :
    s.Passes (s.settle env).1 (s.settle env).2 :=
  passes_run env hTimely _

end Schedule

end Purse
