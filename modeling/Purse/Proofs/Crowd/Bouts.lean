import Purse.Proofs.Crowd.Wakes
import Purse.Proofs.Crowd.Watch

/-!
# Commands that are let run

A schedule lets a command run until it is over or waits, and wakes the agents that are given a row
meanwhile. All that this does to a crowd is told at once (`Crowd.Bout`): what the others keep, who is
woken, and how often the command may still have to wait. A command waits at most twice: a transfer for
its first wallet and for its second, any other command for its last call.

## Definitions

* `Program.RowLast`: a call for a row is the last one that a program makes.
* `Program.waits`: how often a program that waits will have waited in the end, at most.
* `Thread.Within`: an agent has no more than so many waits before it.
* `Crowd.Bout`: what becomes of a crowd while an agent is let run.

## Results

* `bout_drive`, `bout_driveOn`: to let a program run, or run on, is a bout.
* `Command.within`: a command waits at most twice.
-/

namespace Purse

-- ---------------------------------------------------------------------------
-- How often a command waits
-- ---------------------------------------------------------------------------

namespace Stage

variable {legs : Legs} {v : View} {stage stage' : Stage}

/-- How many locks a transfer has yet to ask for. -/
def locksLeft : Stage → Nat
  | opening | lockingFirst => 2
  | lockingSecond _ => 1
  | debiting _ _ | crediting _ _ | committing _ _ | undoing _ => 0

theorem locksLeft_ofPair (legs : Legs) (wallets : Option Wallet × Option Wallet) :
    (ofPair legs wallets).locksLeft = 0 := by
  obtain ⟨e, hUndoing⟩ | ⟨sender, receiver, -, hDebiting⟩ := ofPair_cases legs wallets
  · rw [hUndoing]
    rfl
  · rw [hDebiting]
    rfl

theorem locksLeft_after {answer : Result (stage.call legs).Answer}
    (hNext : stage.after legs answer = .inl stage') : stage'.locksLeft ≤ stage.locksLeft := by
  cases stage with
  | lockingSecond first =>
    cases answer with
    | error e =>
      cases hNext
      exact Nat.zero_le _
    | ok second =>
      obtain rfl := Sum.inl.inj hNext
      rw [locksLeft_ofPair]
      exact Nat.zero_le _
  | committing sender receiver => cases hNext
  | undoing e => cases hNext
  | opening | lockingFirst | debiting | crediting =>
    cases answer <;> cases hNext <;> simp [locksLeft]

/-- An answer to a lock leaves one lock fewer to ask for. -/
theorem locksLeft_after_lock {answer : Result (stage.call legs).Answer}
    (hLock : stage = lockingFirst ∨ ∃ first, stage = lockingSecond first)
    (hNext : stage.after legs answer = .inl stage') :
    stage'.locksLeft ≤ stage.locksLeft - 1 := by
  obtain rfl | ⟨first, rfl⟩ := hLock
  · cases answer <;> cases hNext <;> simp [locksLeft]
  · cases answer with
    | error e =>
      cases hNext
      exact Nat.zero_le _
    | ok second =>
      obtain rfl := Sum.inl.inj hNext
      rw [locksLeft_ofPair]
      exact Nat.zero_le _

end Stage

namespace Program

variable {α β : Type}

/-- A program that makes no further call once it has come for a row. -/
def RowLast : Program α → Prop
  | .done _ => True
  | .call c next => ∀ answer, (next answer).RowLast ∧ (c.row? ≠ none → ∃ r, next answer = .done r)

/-- How many wallets a program comes for if it finds none of them, and every other call fails. -/
def locks : Program α → Nat
  | .done _ => 0
  | .call (.lock _ _) next => (next (.ok none)).locks + 1
  | .call _ next => (next (.error .cancelled)).locks

/-- How often a program that waits will have waited in the end, at most. -/
def waits (p : Program α) : Nat := max 1 p.locks

theorem waits_pos (p : Program α) : 1 ≤ p.waits := Nat.le_max_left 1 _

end Program

theorem Stage.waits_program (legs : Legs) {stage : Stage}
    (hLock : stage = lockingFirst ∨ ∃ first, stage = lockingSecond first) :
    (stage.program legs).waits = stage.locksLeft := by
  have hSecond : ∀ first, ((lockingSecond first).program legs).locks = 1 := by
    intro first
    have hVain : ofPair legs (pair legs first none) = undoing .invalidUser :=
      ofPair_of_none (Or.inr rfl)
    have hUndoing : ((undoing .invalidUser).program legs).locks = 0 := by
      rw [program_eq]
      rfl
    rw [program_eq]
    show ((ofPair legs (pair legs first none)).program legs).locks + 1 = 1
    rw [hVain, hUndoing]
  obtain rfl | ⟨first, rfl⟩ := hLock
  · have hFirst : (lockingFirst.program legs).locks = 2 := by
      rw [program_eq]
      show ((lockingSecond none).program legs).locks + 1 = 2
      rw [hSecond]
    unfold Program.waits
    rw [hFirst]
    rfl
  · unfold Program.waits
    rw [hSecond]
    rfl

/-- An agent has no more than so many waits before it: it is along a transfer with that many locks to
ask for, or its next call for a row is its last one. -/
def Thread.Within (n : Nat) (v : View) (t : Thread) : Prop :=
  ∀ p, t.rest? = some p →
    (∃ (legs : Legs) (stage : Stage), legs.Proper ∧ p = stage.program legs ∧ stage.Holds legs v ∧
      stage.locksLeft ≤ n) ∨
    1 ≤ n ∧ p.RowLast

namespace Thread.Within

variable {n m : Nat} {v v' : View} {t : Thread}

theorem of_done {r : Result Reply} : (Thread.ofProgram (.done r)).Within n v := by
  rintro p ⟨⟩

theorem of_ended {ending : Ending} : (Thread.ended ending).Within n v := by
  rintro p ⟨⟩

theorem of_rowLast {p : Program Reply} (hLast : p.RowLast) (hSome : 1 ≤ n) :
    (Thread.ofProgram p).Within n v := by
  intro q hRest
  cases p with
  | done r => cases hRest
  | call c next =>
    cases hRest
    exact Or.inr ⟨hSome, hLast⟩

theorem of_leads {legs : Legs} {next : Stage ⊕ Result Unit} (hProper : legs.Proper)
    (hLeads : Stage.Leads legs v next)
    (hLeft : ∀ stage, next = .inl stage → stage.locksLeft ≤ n) :
    (Thread.ofProgram (Stage.rest legs next)).Within n v := by
  cases next with
  | inl stage =>
    intro p hRest
    rw [Stage.rest, Thread.rest?_ofProgram] at hRest
    exact Or.inl ⟨legs, stage, hProper, (Option.some.inj hRest).symm, hLeads, hLeft stage rfl⟩
  | inr result => exact of_done

theorem mono (hWithin : t.Within n v) (hLe : n ≤ m) : t.Within m v := by
  intro p hRest
  obtain ⟨legs, stage, hProper, hProgram, hHolds, hLeft⟩ | ⟨hSome, hLast⟩ := hWithin p hRest
  · exact Or.inl ⟨legs, stage, hProper, hProgram, hHolds, hLeft.trans hLe⟩
  · exact Or.inr ⟨hSome.trans hLe, hLast⟩

theorem congr (hWithin : t.Within n v) (hCopies : v'.copies = v.copies)
    (hSame : ∀ id ∈ v.locked, v'.wallet? id = v.wallet? id) : t.Within n v' := by
  intro p hRest
  obtain ⟨legs, stage, hProper, hProgram, hHolds, hLeft⟩ | hLast := hWithin p hRest
  · exact Or.inl ⟨legs, stage, hProper, hProgram, hHolds.congr hCopies hSame, hLeft⟩
  · exact Or.inr hLast

/-- An agent that waits has the waits before it that its program has. -/
theorem of_waiting {c : Call} {next : Result c.Answer → Program Reply} {row : WalletId}
    (hWithin : (Thread.waiting c next row).Within n v) (hRow : c.row? = some row)
    (hNew : row ∉ v.locked) : (Program.call c next).waits ≤ n ∧
      (Thread.waiting c next row).Within (Program.call c next).waits v := by
  obtain ⟨legs, stage, hProper, hProgram, hHolds, hLeft⟩ | ⟨hSome, hLast⟩ := hWithin _ rfl
  · have hCall := hProgram
    rw [stage.program_eq] at hCall
    cases hCall
    have hWaits := Stage.waits_program legs (hHolds.locking hRow hNew)
    rw [hProgram, hWaits]
    refine ⟨hLeft, fun p hRest => Or.inl ⟨legs, stage, hProper, ?_, hHolds, Nat.le_refl _⟩⟩
    rw [← hProgram]
    exact (Option.some.inj hRest).symm
  · have hLocks : (Program.call c next).locks ≤ 1 := by
      have hDone : ∀ answer, (next answer).locks = 0 := by
        intro answer
        obtain ⟨r, hr⟩ := (hLast answer).2 (by simp [hRow])
        rw [hr]
        rfl
      cases c with
      | lock id user =>
        show (next _).locks + 1 ≤ 1
        rw [hDone]
      | _ =>
        show (next _).locks ≤ 1
        rw [hDone]
        exact Nat.zero_le _
    have hWaits : (Program.call c next).waits = 1 := by
      unfold Program.waits
      omega
    rw [hWaits]
    refine ⟨hSome, fun p hRest => Or.inr ⟨Nat.le_refl _, ?_⟩⟩
    rw [← Option.some.inj hRest]
    exact hLast

end Thread.Within

/-! ## Commands wait at most twice -/

theorem Topup.rowLast_applying (r : Topup) : r.applying.RowLast := by
  unfold applying
  split
  · exact fun answer => ⟨by cases answer <;> trivial, fun _ => ⟨_, rfl⟩⟩
  · exact fun answer => ⟨trivial, fun _ => ⟨_, rfl⟩⟩

theorem rowLast_toppingUp (request : Option Topup) : (toppingUp request).RowLast := by
  cases request with
  | none => trivial
  | some r =>
    rw [toppingUp_some]
    split
    · trivial
    · intro answer
      refine ⟨?_, fun hRow => absurd rfl hRow⟩
      rcases answer with e | _ | _
      · trivial
      · exact r.rowLast_applying
      · trivial

theorem rowLast_creation (request : Option NewWallet) : (creation request).RowLast := by
  cases request with
  | none => trivial
  | some request =>
    rw [creation_some]
    cases request.check with
    | error e => trivial
    | ok user =>
      refine fun answer => ⟨?_, fun hRow => absurd rfl hRow⟩
      cases answer with
      | error e => trivial
      | ok id =>
        refine fun answer => ⟨?_, fun hRow => absurd rfl hRow⟩
        cases answer with
        | error e => trivial
        | ok now => exact fun answer => ⟨by cases answer <;> trivial, fun hRow => absurd rfl hRow⟩

theorem within_transferring {v : View} (hCopies : v.copies = []) (request : Option Transfer) :
    (Thread.ofProgram (transferring request)).Within 2 v := by
  cases request with
  | none => exact .of_done
  | some r =>
    rw [transferring_some]
    cases hCheck : r.check with
    | error e => exact .of_done
    | ok legs =>
      have hLeads : Stage.Leads legs v (.inl .opening) := hCopies
      have hWithin := Thread.Within.of_leads (n := 2) (Transfer.check_ok hCheck) hLeads (by
        rintro stage ⟨⟩
        exact Nat.le_refl _)
      exact hWithin

/-- A command waits at most twice. -/
theorem Command.within {v : View} (hCopies : v.copies = []) (c : Command) :
    (Thread.ofProgram c.program).Within 2 v := by
  have hLast : ∀ {p : Program Reply}, p.RowLast → (Thread.ofProgram p).Within 2 v :=
    fun hLast => .of_rowLast hLast (by decide)
  refine c.program_induction (fun p => (Thread.ofProgram p).Within 2 v)
    (fun _ _ request => hLast (rowLast_creation request))
    (fun _ _ request => hLast (rowLast_toppingUp request))
    (fun _ _ request => within_transferring hCopies request) ?_ ?_ ?_
  · exact fun e => .of_done
  · exact fun id => hLast fun answer => ⟨trivial, fun hRow => absurd rfl hRow⟩
  · exact fun user => hLast fun answer => ⟨trivial, fun hRow => absurd rfl hRow⟩

-- ---------------------------------------------------------------------------
-- Calls that have to wait
-- ---------------------------------------------------------------------------

namespace Store

variable {pending : Agent → Option WalletId} {s : Store} {a : Agent} {id x : WalletId}
  {user : UserId} {amount : Decimal} {now : Timestamp}

theorem row?_lockGranted : (s.lockGranted a id user).row? = none := by
  unfold lockGranted
  split
  · rfl
  · split <;> rfl

theorem row?_addToCopy (w : Wallet) : (s.addToCopy a w amount now).row? = none := by
  unfold addToCopy
  split <;> rfl

theorem row?_addWithinGranted : (s.addWithinGranted a id amount now).row? = none := by
  unfold addWithinGranted
  split
  · rfl
  · exact row?_addToCopy _

theorem row?_addGranted : (s.addGranted id amount now).row? = none := by
  unfold addGranted
  split
  · rfl
  · split <;> rfl

/-- An agent has to wait for a row only if somebody else holds it. -/
theorem acquire_outside {α : Type} {row : Row} {granted : Store → Step α}
    (hCoh : Coherent pending s) (hIdle : pending a = none) (hNew : id ∉ s.locked a)
    (hRow : s.rows.get? id = some row) (hGranted : ∀ t, (granted t).row? = none)
    (hWaits : (s.acquire a id row granted).row? = some x) :
    (s.acquire a id row granted).store.holder? x ≠ some a := by
  unfold acquire at hWaits ⊢
  cases hHolder : row.holder with
  | none =>
    simp only [hHolder, Option.isNone_none, if_true, hGranted] at hWaits
    cases hWaits
  | some b =>
    simp only [hHolder, Option.isNone_some] at hWaits ⊢
    obtain rfl := Option.some.inj hWaits
    have hNow : (s.modifyRow id (·.entered a)).holder? id = some b := by
      rw [holder?_modifyRow, if_pos rfl, hRow]
      show (row.entered a).holder = some b
      unfold Row.entered
      rw [hHolder]
    show (s.modifyRow id (·.entered a)).holder? id ≠ some a
    rw [hNow]
    intro hSame
    -- the holder stands in the line, where the agent has just come
    refine hCoh.not_mem_line hIdle hNew (List.mem_of_mem_head? ?_)
    rw [← hCoh.holder?_eq_head?, holder?_of_get? hRow, hHolder, hSame]
    rfl

theorem lock_outside (hCoh : Coherent pending s) (hIdle : pending a = none)
    (hWaits : (s.lock a id user).row? = some x) : (s.lock a id user).store.holder? x ≠ some a := by
  unfold lock at hWaits ⊢
  cases hCopy : s.copy? a id with
  | some w => simp [hCopy, Step.row?] at hWaits
  | none =>
    cases hRow : s.rows.get? id with
    | none => simp [hCopy, hRow, Step.row?] at hWaits
    | some row =>
      simp only [hCopy, hRow] at hWaits ⊢
      split at hWaits
      · next hOwned =>
        rw [if_pos hOwned]
        exact acquire_outside hCoh hIdle (copy?_eq_none_iff.mp hCopy) hRow
          (fun _ => row?_lockGranted) hWaits
      · cases hWaits

theorem addWithin_outside (hCoh : Coherent pending s) (hIdle : pending a = none)
    (hWaits : (s.addWithin a id amount now).row? = some x) :
    (s.addWithin a id amount now).store.holder? x ≠ some a := by
  unfold addWithin at hWaits ⊢
  split at hWaits
  · cases hWaits
  · next hUnarmed =>
    rw [if_neg hUnarmed]
    cases hCopy : s.copy? a id with
    | some w => simp [hCopy, row?_addToCopy] at hWaits
    | none =>
      cases hRow : s.rows.get? id with
      | none => simp [hCopy, hRow, Step.row?] at hWaits
      | some row =>
        simp only [hCopy, hRow] at hWaits ⊢
        exact acquire_outside hCoh hIdle (copy?_eq_none_iff.mp hCopy) hRow
          (fun _ => row?_addWithinGranted) hWaits

theorem add_outside (hCoh : Coherent pending s) (hIdle : pending a = none)
    (hNew : id ∉ s.locked a) (hWaits : (s.add a id amount now).row? = some x) :
    (s.add a id amount now).store.holder? x ≠ some a := by
  unfold add at hWaits ⊢
  cases hRow : s.rows.get? id with
  | none => simp [hRow, Step.row?] at hWaits
  | some row =>
    simp only [hRow] at hWaits ⊢
    exact acquire_outside hCoh hIdle hNew hRow (fun _ => row?_addGranted) hWaits

end Store

namespace Ledger

open Store

variable {env : Surroundings} {l : Ledger} {a : Agent} {c : Call}
  {pending : Agent → Option WalletId} {x : WalletId}

theorem ofStep_outside (l : Ledger) {step : Store.Step c.Answer}
    (hOutside : step.row? = some x → step.store.holder? x ≠ some a)
    (hWaits : (l.ofStep step).row? = some x) : (l.ofStep step).store.holder? x ≠ some a := by
  cases step with
  | replied answer s woken => cases hWaits
  | waiting row s => exact hOutside hWaits

/-- A call has to wait for a row only if somebody else holds it. -/
theorem execute_outside (hCoh : l.store.Coherent pending) (hIdle : pending a = none)
    {isOpen : Bool} (hFits : c.fits isOpen = true)
    (hClosed : isOpen = false → l.store.copies a = [])
    (hWaits : (l.execute env a c).row? = some x) :
    (l.execute env a c).store.holder? x ≠ some a := by
  cases c with
  | lock id user => exact ofStep_outside l (lock_outside hCoh hIdle) hWaits
  | addWithin id amount => exact ofStep_outside l.read (addWithin_outside hCoh hIdle) hWaits
  | add id amount =>
    refine ofStep_outside l.read (add_outside hCoh hIdle ?_) hWaits
    rw [locked, hClosed (by simpa [Call.fits] using hFits)]
    exact List.not_mem_nil
  | insert w =>
    simp only [execute] at hWaits
    split at hWaits <;> cases hWaits
  | claim key =>
    simp only [execute] at hWaits
    split at hWaits <;> cases hWaits
  | newId =>
    simp only [execute] at hWaits
    split at hWaits <;> cases hWaits
  | begin | commit | rollback | get | list | release | readClock => cases hWaits

theorem perform_outside (hCoh : l.store.Coherent pending) (hIdle : pending a = none)
    {isOpen : Bool} (hFits : c.fits isOpen = true)
    (hClosed : isOpen = false → l.store.copies a = [])
    (hWaits : (l.perform env a c).row? = some x) :
    (l.perform env a c).store.holder? x ≠ some a := by
  obtain ⟨l', hStore, hEarnest | ⟨reason, hRefused⟩⟩ := perform_eq env l a c
  · rw [hEarnest] at hWaits ⊢
    rw [← hStore] at hCoh hClosed
    exact execute_outside hCoh hIdle hFits hClosed hWaits
  · rw [hRefused] at hWaits
    cases c <;> cases hWaits

/-- The rest of a call whose agent has been given its row is answered. -/
theorem resume_replied {id : WalletId} (hRow : c.row? = some id) (env : Surroundings) :
    ∃ answer l' woken, l.resume env a c = .replied answer l' woken := by
  have hReplied : ∀ (l : Ledger) {step : Store.Step c.Answer}, step.row? = none →
      ∃ answer l' woken, l.ofStep step = .replied answer l' woken := by
    intro l step hNone
    cases step with
    | replied answer s woken => exact ⟨_, _, _, rfl⟩
    | waiting row s => cases hNone
  cases c with
  | lock wallet user => exact hReplied l row?_lockGranted
  | addWithin wallet amount => exact hReplied l.read row?_addWithinGranted
  | add wallet amount => exact hReplied l.read row?_addGranted
  | _ => simp [Call.row?] at hRow

end Ledger

-- ---------------------------------------------------------------------------
-- Bouts
-- ---------------------------------------------------------------------------

/-- The agents that a program gave a row to until it was over or waited. One that ran into a limit is
dropped besides. -/
def Progress.woken (a : Agent) : Progress Reply → List Agent
  | .ended _ _ woken | .waiting _ _ _ _ woken => woken
  | .faulted _ l woken => woken ++ (l.abandon a none).2

namespace Crowd

variable {env : Surroundings} {s s' s'' : Crowd} {a b : Agent} {e : Event} {c : Call}
  {next : Result c.Answer → Program Reply} {row : WalletId} {woken others : List Agent} {n : Nat}

/-- What becomes of a crowd while an agent is let run: it takes no time, the others stay where they
are with what they hold, and those are woken that get their row. -/
structure Bout (a : Agent) (s s' : Crowd) (woken : List Agent) : Prop where
  sound : s'.Sound
  now_eq : s'.ledger.now = s.ledger.now
  frame : ∀ {b}, b ≠ a → s'.threads b = s.threads b ∧
    s'.ledger.store.copies b = s.ledger.store.copies b ∧
    ∀ id, s.ledger.store.holder? id = some b → s'.ledger.store.holder? id = some b ∧
      s'.ledger.store.wallet? id = s.ledger.store.wallet? id
  wakes : Store.Wakes s.pending a s.ledger.store s'.ledger.store woken
  within : ∀ {n}, (s.threads a).Within n (s.ledger.store.view a) →
    (s'.threads a).Within n (s'.ledger.store.view a)

namespace Bout

theorem refl (hSound : s.Sound) (a : Agent) : Bout a s s [] :=
  ⟨hSound, rfl, fun _ => ⟨rfl, rfl, fun _ hHolder => ⟨hHolder, rfl⟩⟩, .refl _ a _, id⟩

theorem trans (hFirst : Bout a s s' woken) (hThen : Bout a s' s'' others) :
    Bout a s s'' (woken ++ others) where
  sound := hThen.sound
  now_eq := hThen.now_eq.trans hFirst.now_eq
  frame hb := by
    obtain ⟨hThread, hCopies, hHeld⟩ := hFirst.frame hb
    obtain ⟨hThread', hCopies', hHeld'⟩ := hThen.frame hb
    refine ⟨hThread'.trans hThread, hCopies'.trans hCopies, fun id hHolder => ?_⟩
    obtain ⟨hStill, hWallet⟩ := hHeld id hHolder
    obtain ⟨hStill', hWallet'⟩ := hHeld' id hStill
    exact ⟨hStill', hWallet'.trans hWallet⟩
  wakes := by
    refine hFirst.wakes.trans (hThen.wakes.congr fun b hb => ?_)
    exact congrArg Thread.row? (hFirst.frame hb).1.symm
  within := fun hWithin => hThen.within (hFirst.within hWithin)

end Bout

/-! ## Turns as bouts -/

/-- The agents that a turn gave a row to. -/
def wokenBy (a : Agent) : Outcome c → List Agent
  | .faulted _ l => (l.abandon a none).2
  | .replied _ _ woken => woken
  | .waiting _ _ => []

/-- After its turn an agent has no more waits before it than before. -/
theorem within_turn? (hSound : s.Sound) (hTurn : s.turn? env a = some (e, s'))
    (hWithin : (s.threads a).Within n (s.ledger.store.view a)) :
    (s'.threads a).Within n (s'.ledger.store.view a) := by
  obtain ⟨c, next, -, -, hRest, -⟩ := turn_told hSound hTurn
  obtain ⟨legs, stage, hProper, hProgram, hHolds, hLeft⟩ | ⟨hSome, hLast⟩ := hWithin _ hRest
  · rw [hProgram] at hRest
    obtain ⟨answer, -, hThread, -, hLeads⟩ | ⟨hStay, hStill⟩ | ⟨fault, hThread, -⟩ :=
      turn?_stage hSound hProper hTurn hRest hHolds
    · rw [hThread]
      exact .of_leads hProper hLeads fun stage' hNext => (Stage.locksLeft_after hNext).trans hLeft
    · intro p hNow
      rw [hStay] at hNow
      exact Or.inl ⟨legs, stage, hProper, (Option.some.inj hNow).symm, hStill, hLeft⟩
    · rw [hThread]
      exact .of_ended
  · obtain ⟨answer, -, hThread, -⟩ | ⟨row, -, hThread, -⟩ | ⟨fault, -, hThread, -⟩ :=
      turn?_cases hSound hTurn hRest
    · rw [hThread]
      exact .of_rowLast (hLast answer).1 hSome
    · rw [hThread]
      intro p hNow
      rw [← Option.some.inj hNow]
      exact Or.inr ⟨hSome, hLast⟩
    · rw [hThread]
      exact .of_ended

theorem bout_after {outcome : Outcome c} (hSound : s.Sound)
    (hTurn : s.turn? env a = some (s.after a next outcome))
    (hWakes : Store.Wakes s.pending a s.ledger.store outcome.store outcome.woken)
    (hMoves : Store.Moves a outcome.isLoud (s.pending a, s.ledger.store)
      (outcome.row?, outcome.store)) :
    Bout a s (s.after a next outcome).2 (wokenBy a outcome) where
  sound := (Step.turn hTurn).sound hSound
  now_eq := (turn?_keyed hTurn).1
  frame := fun {b} hb => by
    have hAgent : (s.after a next outcome).1.agent? = some a := agent?_after
    exact (Step.turn hTurn).frame hSound fun hSame =>
      hb (Option.some.inj (hSame.symm.trans hAgent))
  wakes := by
    cases outcome with
    | replied answer l woken => exact hWakes
    | waiting row l => exact hWakes
    | faulted f l =>
      -- the agent is dropped on top of what the call did
      have hAfter : l.store.Coherent (Function.update s.pending a none) :=
        Store.Moves.coherent hMoves hSound.coherent rfl
      exact hWakes.trans (Ledger.abandon_wakes hAfter (Function.update_self ..)).of_update
  within := within_turn? hSound hTurn

theorem bout_perform (env : Surroundings) (hSound : s.Sound)
    (hThread : s.threads a = .calling c next) :
    Bout a s (s.after a next (s.ledger.perform env a c)).2
      (wokenBy a (s.ledger.perform env a c)) := by
  have hIdle : s.pending a = none := by
    unfold pending
    rw [hThread]
    rfl
  obtain ⟨isOpen, hOrderly, hClosed⟩ := hSound.orderly a
  rw [hThread] at hOrderly
  refine bout_after hSound (turn?_of_calling hThread) ?_ ?_
  · exact Ledger.perform_wakes hSound.coherent hIdle hOrderly.1 hClosed
  · rw [hIdle]
    exact Ledger.perform_moves hOrderly.1 hClosed hSound.coherent.keyed

theorem bout_resume (env : Surroundings) (hSound : s.Sound)
    (hThread : s.threads a = .waiting c next row)
    (hHolds : s.ledger.store.holds a row = true) :
    Bout a s (s.after a next (s.ledger.resume env a c)).2
      (wokenBy a (s.ledger.resume env a c)) := by
  have hPending := pending_of_waiting hThread
  have hHolder := Store.holds_iff.mp hHolds
  obtain ⟨isOpen, hOrderly, hClosed⟩ := hSound.orderly a
  rw [hThread] at hOrderly
  refine bout_after hSound (turn?_of_waiting hThread hHolds) ?_ ?_
  · exact Ledger.resume_wakes hSound.coherent hOrderly.2 hHolder
  · rw [hPending]
    exact Ledger.resume_moves hOrderly.2 hHolder (hSound.coherent.apart hPending)
      hSound.coherent.keyed

/-! ## Programs that are let run -/

/-- An agent holds no row that it waits for. -/
def Outside (s : Crowd) (a : Agent) : Prop :=
  ∀ row, s.pending a = some row → s.ledger.store.holder? row ≠ some a

theorem outside_goOn {l : Ledger} {t : Thread} (hNone : t.row? = none) :
    (s.goOn a l t).Outside a := by
  intro row hPending
  rw [pending_goOn, Function.update_self, hNone] at hPending
  cases hPending

/-- A call has to wait for a row only if somebody else holds it. -/
theorem outside_perform {l : Ledger} (hSound : s.Sound) (hThread : s.threads a = .calling c next)
    (hOutcome : s.ledger.perform env a c = .waiting row l) :
    (s.goOn a l (.waiting c next row)).Outside a := by
  intro x hPending
  rw [pending_goOn, Function.update_self] at hPending
  have hIdle : s.pending a = none := by
    unfold pending
    rw [hThread]
    rfl
  obtain ⟨isOpen, hOrderly, hClosed⟩ := hSound.orderly a
  rw [hThread] at hOrderly
  have hOther : (s.ledger.perform env a c).row? = some x →
      (s.ledger.perform env a c).store.holder? x ≠ some a :=
    Ledger.perform_outside hSound.coherent hIdle hOrderly.1 hClosed
  rw [hOutcome] at hOther
  exact hOther hPending

/-- To let a program run until it is over or waits is a bout. -/
theorem bout_drive (env : Surroundings) (program : Program Reply) (hSound : s.Sound)
    (hThread : s.threads a = .ofProgram program) (before : List Agent) :
    let s' := s.reached a (s.ledger.drive env a program before)
    ∃ woken, (s.ledger.drive env a program before).woken a = before ++ woken ∧
      Bout a s s' woken ∧ s'.Outside a := by
  induction program generalizing s before with
  | done result =>
    have hSame : s.reached a (s.ledger.drive env a (.done result) before) = s := by
      show (⟨s.ledger, Function.update s.threads a _⟩ : Crowd) = s
      rw [← show s.threads a = .ended (.result result) from hThread, Function.update_eq_self]
    have hOutside : s.Outside a := by
      intro row hPending
      have hNone : s.pending a = none := by
        unfold pending
        rw [hThread]
        rfl
      rw [hNone] at hPending
      cases hPending
    simp only [hSame]
    exact ⟨[], (List.append_nil before).symm, .refl hSound a, hOutside⟩
  | call c next ih =>
    have hFirst := bout_perform env hSound hThread
    cases hOutcome : s.ledger.perform env a c with
    | replied answer l others =>
      rw [hOutcome] at hFirst
      have hFirst : Bout a s (s.goOn a l (.ofProgram (next answer))) others := hFirst
      obtain ⟨woken, hWoken, hRest, hOutside⟩ :=
        ih answer hFirst.sound (threads_goOn l _) (before ++ others)
      rw [reached_goOn] at hRest hOutside
      simp only [Ledger.drive, hOutcome]
      refine ⟨others ++ woken, ?_, hFirst.trans hRest, hOutside⟩
      rw [← List.append_assoc]
      exact hWoken
    | waiting row l =>
      rw [hOutcome] at hFirst
      simp only [Ledger.drive, hOutcome]
      exact ⟨[], (List.append_nil before).symm, hFirst, outside_perform hSound hThread hOutcome⟩
    | faulted f l =>
      rw [hOutcome] at hFirst
      simp only [Ledger.drive, hOutcome]
      exact ⟨_, rfl, hFirst, outside_goOn rfl⟩

/-- An answer leads a transfer on from its stage. -/
theorem leads_turn? {legs : Legs} {stage : Stage} {answer : Result (stage.call legs).Answer}
    (hSound : s.Sound) (hProper : legs.Proper)
    (hTurn : s.turn? env a = some (.answered a (stage.call legs) answer, s'))
    (hRest : (s.threads a).rest? = some (stage.program legs))
    (hHolds : stage.Holds legs (s.ledger.store.view a)) :
    Stage.Leads legs (s'.ledger.store.view a) (stage.after legs answer) := by
  rw [stage.program_eq] at hRest
  obtain ⟨answer', hEvent, -, hTold⟩ | ⟨row, hEvent, -⟩ | ⟨fault, hEvent, -⟩ :=
    turn?_cases hSound hTurn hRest
  · cases hEvent
    exact hHolds.after hProper hSound.coherent.keyed hTold fun hCall =>
      funext ((Step.turn hTurn).wallet?_eq hSound (isLoud_answered hCall))
  · cases hEvent
  · cases hEvent

/-- An agent that has been given its row has one wait fewer before it. -/
theorem within_resume {answer : Result c.Answer} {l : Ledger} (hSound : s.Sound)
    (hThread : s.threads a = .waiting c next row)
    (hTurn : s.turn? env a = some (s.after a next (.replied answer l woken)))
    (hWithin : (s.threads a).Within n (s.ledger.store.view a)) :
    (Thread.ofProgram (next answer)).Within (n - 1) (l.store.view a) := by
  have hPending := pending_of_waiting hThread
  obtain ⟨isOpen, hOrderly, -⟩ := hSound.orderly a
  rw [hThread] at hOrderly
  have hRest : (s.threads a).rest? = some (.call c next) := by
    rw [hThread]
    rfl
  obtain ⟨legs, stage, hProper, hProgram, hHolds, hLeft⟩ | ⟨hSome, hLast⟩ := hWithin _ hRest
  · have hCall := hProgram
    rw [stage.program_eq] at hCall
    cases hCall
    have hLock := hHolds.locking hOrderly.2 (hSound.coherent.apart hPending)
    rw [hProgram] at hRest
    have hLeads := leads_turn? hSound hProper hTurn hRest hHolds
    exact .of_leads hProper hLeads fun stage' hNext =>
      (Stage.locksLeft_after_lock hLock hNext).trans (Nat.sub_le_sub_right hLeft 1)
  · obtain ⟨r, hr⟩ := (hLast answer).2 (by simp [hOrderly.2])
    rw [hr]
    exact .of_done

/-- To let a program run on that has been given its row is a bout, with one wait fewer to come. -/
theorem bout_driveOn (env : Surroundings) (hSound : s.Sound)
    (hThread : s.threads a = .waiting c next row) (hHolds : s.ledger.store.holds a row = true)
    (hWithin : (s.threads a).Within n (s.ledger.store.view a)) :
    let s' := s.reached a (s.ledger.driveOn env a c next)
    Bout a s s' ((s.ledger.driveOn env a c next).woken a) ∧ s'.Outside a ∧
      (s'.threads a).Within (n - 1) (s'.ledger.store.view a) := by
  obtain ⟨isOpen, hOrderly, -⟩ := hSound.orderly a
  rw [hThread] at hOrderly
  obtain ⟨answer, l, woken, hOutcome⟩ :=
    Ledger.resume_replied (l := s.ledger) (a := a) hOrderly.2 env
  have hTurn : s.turn? env a = some (s.after a next (s.ledger.resume env a c)) :=
    turn?_of_waiting hThread hHolds
  have hFirst : Bout a s (s.goOn a l (.ofProgram (next answer))) woken := by
    have hResumed := bout_resume env hSound hThread hHolds
    rw [hOutcome] at hResumed
    exact hResumed
  rw [hOutcome] at hTurn
  have hFewer := within_resume hSound hThread hTurn hWithin
  have hThen := threads_goOn (s := s) (a := a) l (.ofProgram (next answer))
  -- the rest of the program runs from where the answer has come
  obtain ⟨others, hWoken, hRest, hOutside⟩ :=
    bout_drive env (next answer) hFirst.sound hThen woken
  have hLeft := hRest.within (n := n - 1) (by rw [hThen]; exact hFewer)
  rw [reached_goOn] at hRest hOutside hLeft
  simp only [Ledger.driveOn, hOutcome]
  rw [show (l.drive env a (next answer) woken).woken a = woken ++ others from hWoken]
  exact ⟨hFirst.trans hRest, hOutside, hLeft⟩

end Crowd

end Purse
