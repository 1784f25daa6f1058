import Purse.Proofs.Crowd.Effects
import Purse.Proofs.Crowd.Play

/-!
# All or nothing

A command that ends in an error has changed no committed wallet by any of its steps, whether it was
refused, made to fail, ran into a limit or was dropped. When it is over it stands in no line, and
what it did meanwhile has left the others in theirs: a lock that it gave up has gone to whoever was
next in line, or is free.

## Results

* `Step.defers`: what a step of one agent leaves to the others.
* `Run.all_or_nothing`: commands that end in an error.
-/

namespace Purse

namespace Store

variable {s s' : Store} {a : Agent} {id : WalletId} {row : Row}

/-- What an agent leaves to the others: their copies; their places, in their order; and the lock of
each row, which goes only from the agent to the next in line, or to the agent from nobody. -/
structure Defers (a : Agent) (s s' : Store) : Prop where
  copies : ∀ b, b ≠ a → s'.copies b = s.copies b
  lines : ∀ id, (s'.line id).filter (· ≠ a) = (s.line id).filter (· ≠ a)
  locks : ∀ id, s'.holder? id = s.holder? id ∨
    (s.holder? id = some a ∧ s'.holder? id = (s.line id).tail.head?) ∨
    (s.holder? id = none ∧ s'.holder? id = some a)

/-- An agent that stands in no line holds no row and waits for none. -/
theorem not_mem_row (hOut : a ∉ s.line id) (hRow : s.rows.get? id = some row) :
    row.holder ≠ some a ∧ a ∉ row.queue := by
  rw [line_of_get? hRow] at hOut
  unfold Row.line at hOut
  refine ⟨?_, fun hMem => hOut (List.mem_append_right _ hMem)⟩
  intro hHolder
  rw [hHolder] at hOut
  exact hOut (by simp)

end Store

namespace Crowd

variable {env : Surroundings} {s s' : Crowd} {a : Agent} {e : Event} {trace : List Event}
  {jobs : Agent → Job} {l : Ledger}

/-- Whatever an agent does leaves the others their copies, their places and their locks. -/
theorem Step.defers (hStep : Step env s e s') (hSound : s.Sound) (hAgent : e.agent? = some a) :
    s.ledger.store.Defers a s'.ledger.store where
  copies b hb := (hStep.frame hSound (b := b) (by simp [hAgent, Ne.symm hb])).2.1
  lines id := (hStep.beside hSound hAgent id).filter_eq
  locks id := by
    rw [hSound.coherent.holder?_eq_head?, (hStep.sound hSound).coherent.holder?_eq_head?]
    exact (hStep.beside hSound hAgent id).head?_cases (hSound.coherent.nodup_line id)

/-- A command that ends in an error: in every state afterwards it has no working copies, holds no
row and waits for none; and by each step that it took on the way it changed no committed wallet and
left the others their copies, their places and their locks. -/
theorem Run.all_or_nothing {ending : Ending} (hResting : l.store.Resting)
    (hRun : Run env (start jobs l) trace s) (hCommand : (jobs a).isCommand = true)
    (hEnded : s.threads a = .ended ending) (hFailed : ∀ reply, ending ≠ .result (.ok reply)) :
    s.ledger.store.copies a = [] ∧
    (∀ id row, s.ledger.store.rows.get? id = some row → row.holder ≠ some a ∧ a ∉ row.queue) ∧
    ∀ {before after s₁ e s₂}, Run env (start jobs l) before s₁ → Step env s₁ e s₂ →
      Run env s₂ after s → e.agent? = some a →
      (∀ id, s₂.ledger.store.wallet? id = s₁.ledger.store.wallet? id) ∧
        s₁.ledger.store.Defers a s₂.ledger.store := by
  have hStart := sound_start hResting jobs
  obtain ⟨hCopies, hOut⟩ := (hRun.sound hStart).out hEnded
  refine ⟨hCopies, fun id row => Store.not_mem_row (hOut id), ?_⟩
  intro before after s₁ e s₂ hBefore hStep hAfter hAgent
  have hSound := hBefore.sound hStart
  refine ⟨?_, hStep.defers hSound hAgent⟩
  -- a step of a command that is not its success is quiet
  rcases hStep.command hSound (hBefore.along hResting) hCommand hAgent with hQuiet | hSucceeds
  · exact hStep.wallet?_eq hSound hQuiet.quiet
  · -- had it succeeded, it would still be over with success
    have hStill := hAfter.ended (hStep.sound hSound) hSucceeds.ended
    rw [hEnded] at hStill
    exact absurd (Thread.ended.inj hStill) (hFailed _)

/-- A transfer that its sender's balance does not cover, while another one waits for the row it has
locked first: it is over with both rows given up, and the other one has been given its row. -/
theorem short_transfer_leaves_nothing :
    let s := (play stillness [0, 0, 1, 1, 0, 0]
      (duo (coins 10) (coins 10) [between 1 2 (coins 50), between 2 1 (coins 3)])).2
    s.ledger.store.holder? (.ofNat 1) = some 1 ∧ s.ledger.store.copies 0 = [] ∧
      ∀ id row, s.ledger.store.rows.get? id = some row → row.holder ≠ some 0 ∧ 0 ∉ row.queue := by
  intro s
  have hFacts : (s.threads 0).failure? = some .insufficientBalance ∧
      s.ledger.store.holder? (.ofNat 1) = some 1 := by
    decide +kernel
  have hRun : Run stillness _ _ s := run_play stillness _ _
  -- what has failed is looked up in the run, the rest follows
  obtain ⟨hCopies, hRows, -⟩ := Run.all_or_nothing (resting_duoLedger _ _) hRun rfl
    (Thread.eq_of_failure? hFacts.1) (by rintro _ ⟨⟩)
  exact ⟨hFacts.2, hCopies, hRows⟩

end Crowd

end Purse
