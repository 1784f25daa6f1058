import Purse.Proofs.Crowd.Stages

/-!
# Agents keep to their jobs

An agent with a command is somewhere along that command, in every state that a crowd can reach
(`Crowd.Along`): a top-up at one of its two calls and without copies, a transfer at a stage at which
its copies are as they should be, and either of them without copies once it is over.

## Results

* `turn?_stage`: the turns of a transfer.
* `Run.along`: in every state of a run the agents are along their jobs.
-/

namespace Purse

/-- An agent is somewhere along its job. -/
def Job.Along (v : View) (t : Thread) : Job → Prop
  | topup request => v.copies = [] ∧ (t.isEnded = true ∨
    ∃ r, request = some r ∧ r.key.isEmpty = false ∧
      (t.rest? = some (.call (.claim r.key) r.claimed) ∨ t.rest? = some r.applying))
  | transfer request => t.isEnded = true ∧ v.copies = [] ∨
    ∃ (r : Transfer) (legs : Legs) (stage : Stage), request = some r ∧ r.check = .ok legs ∧
      t.rest? = some (stage.program legs) ∧ stage.Holds legs v
  | other _ _ => True

theorem Thread.rest?_ofProgram (legs : Legs) (stage : Stage) :
    (ofProgram (stage.program legs)).rest? = some (stage.program legs) := by
  rw [stage.program_eq]
  rfl

namespace Job

variable {v v' : View} {t : Thread} {job : Job}

theorem Along.congr (hAlong : job.Along v t) (hCopies : v'.copies = v.copies)
    (hSame : ∀ id ∈ v.locked, v'.wallet? id = v.wallet? id) : job.Along v' t := by
  cases job with
  | topup request => exact ⟨hCopies.trans hAlong.1, hAlong.2⟩
  | transfer request =>
    obtain ⟨hEnded, hNone⟩ | ⟨r, legs, stage, hSome, hCheck, hRest, hHolds⟩ := hAlong
    · exact Or.inl ⟨hEnded, hCopies.trans hNone⟩
    · exact Or.inr ⟨r, legs, stage, hSome, hCheck, hRest, hHolds.congr hCopies hSame⟩
  | other program hOrderly => trivial

/-- An agent that is over, and has no copies, is along any job. -/
theorem along_of_ended (hEnded : t.isEnded = true) (hCopies : v.copies = []) : job.Along v t := by
  cases job with
  | topup request => exact ⟨hCopies, Or.inl hEnded⟩
  | transfer request => exact Or.inl ⟨hEnded, hCopies⟩
  | other program hOrderly => trivial

/-- Before its first step, an agent is along its job. -/
theorem along_ofProgram (hCopies : v.copies = []) : job.Along v (.ofProgram job.program) := by
  cases job with
  | topup request =>
    cases request with
    | none => exact along_of_ended rfl hCopies
    | some r =>
      refine ⟨hCopies, ?_⟩
      rw [program, toppingUp_some]
      split
      · exact Or.inl rfl
      · next hKey => exact Or.inr ⟨r, rfl, by simpa using hKey, Or.inl rfl⟩
  | transfer request =>
    cases request with
    | none => exact along_of_ended rfl hCopies
    | some r =>
      rw [program, transferring_some]
      cases hCheck : r.check with
      | error e => exact Or.inl ⟨rfl, hCopies⟩
      | ok legs =>
        -- a checked transfer has yet to open its transaction
        exact Or.inr ⟨r, legs, .opening, rfl, hCheck, rfl, hCopies⟩
  | other program hOrderly => trivial

end Job

namespace Crowd

variable {env : Surroundings} {s s' : Crowd} {a b : Agent} {e : Event} {trace : List Event}
  {jobs : Agent → Job}

/-- Every agent is somewhere along its job. -/
def Along (jobs : Agent → Job) (s : Crowd) : Prop :=
  ∀ a, (jobs a).Along (s.ledger.store.view a) (s.threads a)

theorem along_start {l : Ledger} (hResting : l.store.Resting) (jobs : Agent → Job) :
    (start jobs l).Along jobs :=
  fun a => Job.along_ofProgram (hResting.idle a)

/-- The turns of an agent by what is left of its program: its call is answered, or has to wait, or
runs into an arithmetic limit. -/
theorem turn?_cases {c : Call} {next : Result c.Answer → Program Reply} (hSound : s.Sound)
    (hTurn : s.turn? env a = some (e, s')) (hRest : (s.threads a).rest? = some (.call c next)) :
    (∃ answer, e = .answered a c answer ∧ s'.threads a = .ofProgram (next answer) ∧
      Told (s.ledger.store.view a) (s'.ledger.store.view a) c answer) ∨
    (∃ row, e = .queued a row ∧ s'.threads a = .waiting c next row ∧
      s'.ledger.store.view a = s.ledger.store.view a) ∨
    (∃ fault, e = .faulted a fault ∧ s'.threads a = .ended (.fault fault) ∧
      s'.ledger.store.copies a = []) := by
  obtain ⟨c', next', outcome, isOpen, hRest', hAfter, -, -, hTold, -⟩ := turn_told hSound hTurn
  rw [hRest] at hRest'
  cases hRest'
  cases outcome with
  | replied answer l woken =>
    obtain ⟨rfl, rfl⟩ := Prod.mk.inj hAfter
    exact Or.inl ⟨answer, rfl, threads_goOn .., hTold⟩
  | waiting row l =>
    obtain ⟨rfl, rfl⟩ := Prod.mk.inj hAfter
    exact Or.inr (Or.inl ⟨row, rfl, threads_goOn .., hTold.2.2⟩)
  | faulted fault l =>
    obtain ⟨rfl, rfl⟩ := Prod.mk.inj hAfter
    exact Or.inr (Or.inr ⟨fault, rfl, threads_goOn .., copies_abandon l a none⟩)

/-- A transfer changes committed wallets by its commit only. -/
theorem isLoud_answered {legs : Legs} {stage : Stage} {answer : Result (stage.call legs).Answer}
    (hCall : stage.call legs ≠ .commit) :
    (Event.answered a (stage.call legs) answer).isLoud = false := by
  cases stage with
  | committing sender receiver => exact absurd rfl hCall
  | _ => cases answer <;> rfl

/-- The turns of a transfer at a stage: it is answered and led on, or has to wait at the same stage, or
runs into an arithmetic limit. -/
theorem turn?_stage {legs : Legs} {stage : Stage} (hSound : s.Sound) (hProper : legs.Proper)
    (hTurn : s.turn? env a = some (e, s'))
    (hRest : (s.threads a).rest? = some (stage.program legs))
    (hHolds : stage.Holds legs (s.ledger.store.view a)) :
    (∃ answer, e = .answered a (stage.call legs) answer ∧
      s'.threads a = .ofProgram (Stage.rest legs (stage.after legs answer)) ∧
      Told (s.ledger.store.view a) (s'.ledger.store.view a) (stage.call legs) answer ∧
      Stage.Leads legs (s'.ledger.store.view a) (stage.after legs answer)) ∨
    ((s'.threads a).rest? = some (stage.program legs) ∧
      stage.Holds legs (s'.ledger.store.view a)) ∨
    (∃ fault, s'.threads a = .ended (.fault fault) ∧ s'.ledger.store.copies a = []) := by
  rw [stage.program_eq] at hRest ⊢
  obtain ⟨answer, rfl, hThread, hTold⟩ | ⟨row, rfl, hThread, hSeen⟩ |
    ⟨fault, rfl, hThread, hNone⟩ := turn?_cases hSound hTurn hRest
  · -- all answers but that to the commit leave the committed wallets as they are
    have hQuiet : stage.call legs ≠ .commit →
        (s'.ledger.store.view a).wallet? = (s.ledger.store.view a).wallet? := fun hCall =>
      funext ((Step.turn hTurn).wallet?_eq hSound (isLoud_answered hCall))
    exact Or.inl ⟨answer, rfl, hThread, hTold,
      hHolds.after hProper hSound.coherent.keyed hTold hQuiet⟩
  · rw [hThread, hSeen]
    exact Or.inr (Or.inl ⟨rfl, hHolds⟩)
  · exact Or.inr (Or.inr ⟨fault, hThread, hNone⟩)

/-- After its turn, a transfer is at another stage, or over. -/
theorem along_turn?_transfer {r : Transfer} {legs : Legs} {stage : Stage} (hSound : s.Sound)
    (hTurn : s.turn? env a = some (e, s')) (hCheck : r.check = .ok legs)
    (hRest : (s.threads a).rest? = some (stage.program legs))
    (hHolds : stage.Holds legs (s.ledger.store.view a)) :
    (Job.transfer (some r)).Along (s'.ledger.store.view a) (s'.threads a) := by
  obtain ⟨answer, -, hThread, -, hLeads⟩ | ⟨hStay, hStill⟩ | ⟨fault, hThread, hNone⟩ :=
    turn?_stage hSound (Transfer.check_ok hCheck) hTurn hRest hHolds
  · rw [hThread]
    cases hNext : stage.after legs answer with
    | inl stage' =>
      rw [hNext] at hLeads
      exact Or.inr ⟨r, legs, stage', rfl, hCheck, Thread.rest?_ofProgram legs stage', hLeads⟩
    | inr result =>
      rw [hNext] at hLeads
      exact Job.along_of_ended rfl hLeads
  · exact Or.inr ⟨r, legs, stage, rfl, hCheck, hStay, hStill⟩
  · rw [hThread]
    exact Job.along_of_ended rfl hNone

/-- An agent that is along its job before its turn is so after it, if every answer keeps it so. -/
theorem along_turn?_of_rest {job : Job} {c : Call} {next : Result c.Answer → Program Reply}
    (hSound : s.Sound) (hTurn : s.turn? env a = some (e, s'))
    (hRest : (s.threads a).rest? = some (.call c next))
    (hStay : ∀ t : Thread, t.rest? = some (.call c next) → job.Along (s.ledger.store.view a) t)
    (hNext : ∀ answer v', Told (s.ledger.store.view a) v' c answer →
      job.Along v' (.ofProgram (next answer))) :
    job.Along (s'.ledger.store.view a) (s'.threads a) := by
  obtain ⟨answer, rfl, hThread, hTold⟩ | ⟨row, rfl, hThread, hSeen⟩ |
    ⟨fault, rfl, hThread, hNone⟩ := turn?_cases hSound hTurn hRest
  · rw [hThread]
    exact hNext answer _ hTold
  · rw [hThread, hSeen]
    exact hStay _ rfl
  · rw [hThread]
    exact Job.along_of_ended rfl hNone

/-- After the turn at which it asks for its key, a top-up is at its second call, or over. -/
theorem along_turn?_claim {r : Topup} (hSound : s.Sound) (hTurn : s.turn? env a = some (e, s'))
    (hKey : r.key.isEmpty = false)
    (hRest : (s.threads a).rest? = some (.call (.claim r.key) r.claimed))
    (hNone : s.ledger.store.copies a = []) :
    (Job.topup (some r)).Along (s'.ledger.store.view a) (s'.threads a) := by
  refine along_turn?_of_rest hSound hTurn hRest (fun t hStill => ?_) fun answer v' hTold => ?_
  · exact ⟨hNone, Or.inr ⟨r, rfl, hKey, Or.inl hStill⟩⟩
  · have hSame : v'.copies = s.ledger.store.copies a := by
      cases answer <;> exact hTold
    refine ⟨hSame.trans hNone, ?_⟩
    rcases answer with e | _ | _
    · exact Or.inl rfl
    · refine Or.inr ⟨r, rfl, hKey, Or.inr ?_⟩
      show (Thread.ofProgram r.applying).rest? = some r.applying
      unfold Topup.applying
      split <;> rfl
    · exact Or.inl rfl

/-- After its second call, a top-up is over. -/
theorem along_turn?_applying {r : Topup} (hSound : s.Sound) (hTurn : s.turn? env a = some (e, s'))
    (hKey : r.key.isEmpty = false) (hRest : (s.threads a).rest? = some r.applying)
    (hNone : s.ledger.store.copies a = []) :
    (Job.topup (some r)).Along (s'.ledger.store.view a) (s'.threads a) := by
  have hStay : ∀ t : Thread, t.rest? = some r.applying →
      (Job.topup (some r)).Along (s.ledger.store.view a) t :=
    fun t hStill => ⟨hNone, Or.inr ⟨r, rfl, hKey, Or.inr hStill⟩⟩
  unfold Topup.applying at hRest hStay
  cases hCheck : r.check with
  | ok wallet =>
    simp only [hCheck] at hRest hStay
    refine along_turn?_of_rest hSound hTurn hRest hStay fun answer v' hTold => ?_
    have hSame : v'.copies = s.ledger.store.copies a := by
      cases answer with
      | ok added => exact hTold.1
      | error e => exact hTold
    exact Job.along_of_ended rfl (hSame.trans hNone)
  | error reason =>
    simp only [hCheck] at hRest hStay
    refine along_turn?_of_rest hSound hTurn hRest hStay fun answer v' hTold => ?_
    have hSame : v'.copies = s.ledger.store.copies a := by
      cases answer <;> exact hTold
    exact Job.along_of_ended rfl (hSame.trans hNone)

theorem along_turn? (hSound : s.Sound) (hAlong : s.Along jobs)
    (hTurn : s.turn? env a = some (e, s')) :
    (jobs a).Along (s'.ledger.store.view a) (s'.threads a) := by
  have hMine := hAlong a
  have hBusy : (s.threads a).isEnded ≠ true := fun hEnded => by
    simp [turn?_of_isEnded hEnded] at hTurn
  cases hJob : jobs a with
  | topup request =>
    rw [hJob] at hMine
    obtain ⟨hNone, hEnded | ⟨r, rfl, hKey, hRest | hRest⟩⟩ := hMine
    · exact absurd hEnded hBusy
    · exact along_turn?_claim hSound hTurn hKey hRest hNone
    · exact along_turn?_applying hSound hTurn hKey hRest hNone
  | transfer request =>
    rw [hJob] at hMine
    obtain ⟨hEnded, -⟩ | ⟨r, legs, stage, rfl, hCheck, hRest, hHolds⟩ := hMine
    · exact absurd hEnded hBusy
    · exact along_turn?_transfer hSound hTurn hCheck hRest hHolds
  | other program hOrderly => trivial

theorem Step.along (hStep : Step env s e s') (hSound : s.Sound) (hAlong : s.Along jobs) :
    s'.Along jobs := by
  intro b
  by_cases hb : e.agent? = some b
  · cases hStep with
    | @turn _ _ a hTurn =>
      obtain rfl : a = b := Option.some.inj ((agent?_turn? hTurn).symm.trans hb)
      exact along_turn? hSound hAlong hTurn
    | @drop a hBusy =>
      obtain rfl : a = b := Option.some.inj hb
      refine Job.along_of_ended ?_ (copies_abandon _ _ _)
      show ((s.goOn a _ (.ended _)).threads a).isEnded = true
      rw [threads_goOn]
      rfl
    | aside => simp [Event.agent?] at hb
  · -- somebody else's step: the rows of its copies are its own
    obtain ⟨hThread, hCopies, hRows⟩ := hStep.frame hSound hb
    rw [hThread]
    refine (hAlong b).congr hCopies fun id hMem => ?_
    exact (hRows id (hSound.coherent.holder?_of_locked hMem)).2

theorem Run.along {l : Ledger} (hRun : Run env (start jobs l) trace s)
    (hResting : l.store.Resting) : s.Along jobs := by
  induction hRun with
  | nil => exact along_start hResting jobs
  | snoc hRun hStep ih => exact hStep.along (hRun.sound (sound_start hResting jobs)) ih

end Crowd

end Purse
