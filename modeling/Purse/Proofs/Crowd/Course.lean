import Purse.Proofs.Crowd.Jobs
import Purse.Proofs.Store.Readers

/-!
# Courses

Whoever works on a store by hand can give up a call that waits for a row and keep the transaction it
was made in, to go on in another way. A `Course` is any number of steps of a crowd among which agents
give up calls like that. All that is known of single steps holds of these as well.

## Results

* `Stride.sound`, `Course.sound`: a sound crowd stays sound.
* `Stride.frame`, `Stride.wallets_eq`: what an agent that did not act keeps, and what readers see.
* `Stride.cases`: what an agent's stride is, and what it is told.
* `Course.calls`: an agent makes no other calls than those its program has.
-/

namespace Purse

/-- Every call that a program may make is of a kind. -/
def Program.Calls {α : Type} (P : Call → Prop) : Program α → Prop
  | .done _ => True
  | .call c next => P c ∧ ∀ answer, (next answer).Calls P

theorem Program.Calls.bind {α β : Type} {P : Call → Prop} {p : Program α} {f : α → Program β}
    (hFirst : p.Calls P) (hNext : ∀ a, (f a).Calls P) : (p.bind f).Calls P := by
  induction p with
  | done result =>
    cases result with
    | ok a => exact hNext a
    | error e => trivial
  | call c next ih => exact ⟨hFirst.1, fun answer => ih answer (hFirst.2 answer)⟩

theorem Thread.calls_ofProgram {P : Call → Prop} {p program : Program Reply} (hCalls : p.Calls P)
    (hRest : (ofProgram p).rest? = some program) : program.Calls P := by
  cases p with
  | done result => cases hRest
  | call c next =>
    cases hRest
    exact hCalls

/-- An agent that waits for a row stops waiting. -/
theorem Ledger.withdraw_moves {s : Store} {a : Agent} {id : WalletId} :
    Store.Moves a false (some id, s) (none, (s.withdraw a id).1) := by
  unfold Store.withdraw
  split
  · next hHolds => exact .single (.letGo (Store.holds_iff.mp hHolds))
  · next hHolds => exact .single (.leave fun hHolder => hHolds (Store.holds_iff.mpr hHolder))

/-- An agent that stops waiting keeps its copies. -/
theorem Store.copies_withdraw (s : Store) (a b : Agent) (id : WalletId) :
    (s.withdraw a id).1.copies b = s.copies b := by
  unfold Store.withdraw
  split
  · rw [fst_release, copies_modifyRow]
  · exact copies_modifyRow s id _ b

namespace Crowd

variable {env : Surroundings} {s₀ s s' : Crowd} {a b : Agent} {e : Event} {trace trace' : List Event}

/-- The crowd after an agent gave up its call that waits for a row, to go on with a thread. -/
def givenUp (s : Crowd) (a : Agent) (row : WalletId) (t : Thread) : Crowd :=
  s.goOn a { s.ledger with store := (s.ledger.store.withdraw a row).1 } t

/-- A step, or giving up a call. -/
inductive Stride (env : Surroundings) : Crowd → Event → Crowd → Prop where
  | step {s s' : Crowd} {e : Event} (hStep : Step env s e s') : Stride env s e s'
  /-- An agent gives up a call that waits for a row, and goes on as after an error. -/
  | giveUp {s : Crowd} {a : Agent} {c : Call} {next : Result c.Answer → Program Reply}
      {row : WalletId} (hWaiting : s.threads a = .waiting c next row) :
      Stride env s (.answered a c (.error .cancelled))
        (s.givenUp a row (.ofProgram (next (.error .cancelled))))

/-- Any number of strides, with their events. -/
inductive Course (env : Surroundings) (s₀ : Crowd) : List Event → Crowd → Prop where
  | nil : Course env s₀ [] s₀
  | snoc {trace : List Event} {s s' : Crowd} {e : Event} (hCourse : Course env s₀ trace s)
      (hStride : Stride env s e s') : Course env s₀ (trace ++ [e]) s'

theorem Run.course (hRun : Run env s₀ trace s) : Course env s₀ trace s := by
  induction hRun with
  | nil => exact .nil
  | snoc hRun hStep ih => exact ih.snoc (.step hStep)

theorem Course.trans (hCourse : Course env s₀ trace s) (hCourse' : Course env s trace' s') :
    Course env s₀ (trace ++ trace') s' := by
  induction hCourse' with
  | nil => simpa using hCourse
  | snoc hCourse' hStride ih =>
    rw [← List.append_assoc]
    exact ih.snoc hStride

/-! ## Strides as acts -/

theorem givenUp_acts {row : WalletId} (program : Program Reply) (hPending : s.pending a = some row) :
    s.Acts a false (s.givenUp a row (.ofProgram program)) := by
  refine ⟨?_, fun _ hb => Function.update_of_ne hb _ _⟩
  unfold givenUp
  rw [hPending, pending_goOn, Function.update_self, Thread.row?_ofProgram]
  exact Ledger.withdraw_moves

theorem pending_of_waiting {c : Call} {next : Result c.Answer → Program Reply} {row : WalletId}
    (hWaiting : s.threads a = .waiting c next row) : s.pending a = some row := by
  unfold pending
  rw [hWaiting]
  rfl

theorem Stride.acts (hStride : Stride env s e s') (hSound : s.Sound)
    (hAgent : e.agent? = some a ∨ e.agent? = none) : s.Acts a e.isLoud s' := by
  cases hStride with
  | step hStep => exact hStep.acts hSound hAgent
  | @giveUp b _ _ _ hWaiting =>
    obtain rfl : b = a := by simpa [Event.agent?] using hAgent
    exact givenUp_acts _ (pending_of_waiting hWaiting)

theorem Stride.exists_acts (hStride : Stride env s e s') (hSound : s.Sound) :
    ∃ a, s.Acts a e.isLoud s' := by
  cases hAgent : e.agent? with
  | none => exact ⟨0, hStride.acts hSound (Or.inr hAgent)⟩
  | some a => exact ⟨a, hStride.acts hSound (Or.inl hAgent)⟩

/-- An agent whose stride it was not keeps its place in its program, its copies, the rows it holds
and their wallets. -/
theorem Stride.frame (hStride : Stride env s e s') (hSound : s.Sound) (hb : e.agent? ≠ some b) :
    s'.threads b = s.threads b ∧ s'.ledger.store.copies b = s.ledger.store.copies b ∧
      ∀ id, s.ledger.store.holder? id = some b → s'.ledger.store.holder? id = some b ∧
        s'.ledger.store.wallet? id = s.ledger.store.wallet? id := by
  cases hAgent : e.agent? with
  | none =>
    exact (hStride.acts hSound (Or.inr hAgent) (a := b + 1)).frame hSound (Nat.succ_ne_self b).symm
  | some a =>
    refine (hStride.acts hSound (Or.inl hAgent)).frame hSound ?_
    rintro rfl
    exact hb hAgent

theorem Stride.sound (hStride : Stride env s e s') (hSound : s.Sound) : s'.Sound := by
  cases hStride with
  | step hStep => exact hStep.sound hSound
  | @giveUp a c next row hWaiting =>
    have hPending := pending_of_waiting hWaiting
    have hActs := givenUp_acts (next (.error .cancelled)) hPending
    refine ⟨hActs.coherent hSound, fun b => ?_⟩
    by_cases hb : b = a
    · subst hb
      obtain ⟨isOpen, hOrderly, hClosed⟩ := hSound.orderly b
      rw [hWaiting] at hOrderly
      obtain ⟨⟨-, hNext⟩, hRow⟩ := hOrderly
      refine ⟨isOpen, ?_, fun hShut => ?_⟩
      · unfold givenUp
        rw [threads_goOn]
        -- a call for a row leaves the transaction open or closed as it was
        have hStays : c.leavesOpen isOpen (.error .cancelled) = isOpen := by
          cases c <;> first | rfl | simp [Call.row?] at hRow
        rw [← hStays]
        exact Thread.orderly_ofProgram (hNext _)
      · exact (Store.copies_withdraw _ _ _ _).trans (hClosed hShut)
    · rw [hActs.others b hb, Store.Moves.copies_eq hActs.moves hb]
      exact hSound.orderly b

theorem Course.sound (hCourse : Course env s₀ trace s) (hSound : s₀.Sound) : s.Sound := by
  induction hCourse with
  | nil => exact hSound
  | snoc hCourse hStride ih => exact hStride.sound ih

/-- A stride that is not loud shows nothing to readers outside of transactions. -/
theorem Stride.wallets_eq (hStride : Stride env s e s') (hSound : s.Sound)
    (hQuiet : e.isLoud = false) : s'.ledger.store.wallets = s.ledger.store.wallets := by
  obtain ⟨a, hActs⟩ := hStride.exists_acts hSound
  have hMoves := hActs.moves
  rw [hQuiet] at hMoves
  exact Store.Moves.wallets_eq hMoves hSound.coherent rfl

theorem Stride.wallet?_eq (hStride : Stride env s e s') (hSound : s.Sound)
    (hQuiet : e.isLoud = false) (id : WalletId) :
    s'.ledger.store.wallet? id = s.ledger.store.wallet? id := by
  obtain ⟨a, hActs⟩ := hStride.exists_acts hSound
  rw [hQuiet] at hActs
  exact hActs.wallet?_eq hSound id

/-! ## An agent's own strides -/

/-- An agent's next call fits its transaction: it has no copies unless the transaction is open. -/
theorem Sound.orderly_rest {c : Call} {next : Result c.Answer → Program Reply} (hSound : s.Sound)
    (hRest : (s.threads a).rest? = some (.call c next)) :
    ∃ isOpen, c.fits isOpen = true ∧ (isOpen = false → s.ledger.store.copies a = []) := by
  obtain ⟨isOpen, hOrderly, hClosed⟩ := hSound.orderly a
  refine ⟨isOpen, ?_, hClosed⟩
  cases hThread : s.threads a with
  | calling c' next' =>
    rw [hThread] at hOrderly hRest
    cases hRest
    exact hOrderly.1
  | waiting c' next' row =>
    rw [hThread] at hOrderly hRest
    cases hRest
    exact hOrderly.1.1
  | ended ending =>
    rw [hThread] at hRest
    cases hRest

/-- A call that is given up tells nothing. -/
theorem told_of_givenUp {v v' : View} {c : Call} {row : WalletId} (hRow : c.row? = some row)
    (hSame : v'.copies = v.copies) : Told v v' c (.error .cancelled) := by
  cases c with
  | lock => exact ⟨hSame, by rintro ⟨⟩⟩
  | addWithin => exact ⟨Or.inl hSame, by rintro ⟨⟩⟩
  | add => exact hSame
  | _ => simp [Call.row?] at hRow

/-- An agent's stride: its call is answered, or has to wait, or the agent comes to its end, with no
copies left. -/
theorem Stride.cases (hStride : Stride env s e s') (hSound : s.Sound) (hAgent : e.agent? = some a) :
    (∃ (c : Call) (next : Result c.Answer → Program Reply) (answer : Result c.Answer),
      e = .answered a c answer ∧ (s.threads a).rest? = some (.call c next) ∧
      s'.threads a = .ofProgram (next answer) ∧
      Told (s.ledger.store.view a) (s'.ledger.store.view a) c answer) ∨
    (∃ row, e = .queued a row ∧ (s'.threads a).rest? = (s.threads a).rest? ∧
      s'.ledger.store.view a = s.ledger.store.view a) ∨
    (((∃ fault, e = .faulted a fault) ∨ e = .dropped a) ∧ (s'.threads a).rest? = none ∧
      s'.ledger.store.copies a = []) := by
  cases hStride with
  | step hStep =>
    cases hStep with
    | @turn _ _ b hTurn =>
      obtain rfl : b = a := Option.some.inj ((agent?_turn? hTurn).symm.trans hAgent)
      obtain ⟨c, next, -, -, hRest, -⟩ := turn_told hSound hTurn
      obtain ⟨answer, rfl, hThread, hTold⟩ | ⟨row, rfl, hThread, hSeen⟩ |
          ⟨fault, rfl, hThread, hNone⟩ := turn?_cases hSound hTurn hRest
      · exact Or.inl ⟨c, next, answer, rfl, hRest, hThread, hTold⟩
      · refine Or.inr (Or.inl ⟨row, rfl, ?_, hSeen⟩)
        rw [hThread, hRest]
        rfl
      · refine Or.inr (Or.inr ⟨Or.inl ⟨fault, rfl⟩, ?_, hNone⟩)
        rw [hThread]
        rfl
    | @drop b hBusy =>
      obtain rfl : b = a := Option.some.inj hAgent
      refine Or.inr (Or.inr ⟨Or.inr rfl, ?_, copies_abandon _ _ _⟩)
      unfold dropped
      rw [threads_goOn]
      rfl
    | aside => simp [Event.agent?] at hAgent
  | @giveUp b c next row hWaiting =>
    obtain rfl : b = a := Option.some.inj hAgent
    obtain ⟨isOpen, hOrderly, -⟩ := hSound.orderly b
    rw [hWaiting] at hOrderly
    -- to give up a call is to have it answered with an error
    refine Or.inl ⟨c, next, _, rfl, ?_, threads_goOn _ _, ?_⟩
    · rw [hWaiting]
      rfl
    · exact told_of_givenUp hOrderly.2 (Store.copies_withdraw _ _ _ _)

/-- An answer to a call for no row is the ledger's answer to the call. -/
theorem Stride.performed {c : Call} {answer : Result c.Answer}
    (hStride : Stride env s (.answered a c answer) s') (hSound : s.Sound) (hRow : c.row? = none) :
    ∃ woken, s.ledger.perform env a c = .replied answer s'.ledger woken := by
  -- an agent that waits has come for a row
  have hNotWaiting : ∀ next row, s.threads a ≠ .waiting c next row := by
    intro next row hThread
    obtain ⟨isOpen, hOrderly, -⟩ := hSound.orderly a
    rw [hThread] at hOrderly
    rw [hOrderly.2] at hRow
    cases hRow
  cases hStride with
  | giveUp hWaiting => exact absurd hWaiting (hNotWaiting _ _)
  | step hStep =>
    cases hStep with
    | @turn _ _ b hTurn =>
      obtain rfl : b = a := (Option.some.inj (agent?_turn? hTurn)).symm
      obtain ⟨c', next, ⟨-, hAfter⟩ | ⟨row, hThread, -, hAfter⟩⟩ := turn?_eq_some hTurn
      · cases hOutcome : s.ledger.perform env b c' with
        | replied answer' l woken =>
          rw [hOutcome] at hAfter
          obtain ⟨hEvent, rfl⟩ := Prod.mk.inj hAfter
          cases hEvent
          exact ⟨woken, hOutcome⟩
        | waiting | faulted =>
          rw [hOutcome] at hAfter
          cases (Prod.mk.inj hAfter).1
      · cases hOutcome : s.ledger.resume env b c' with
        | replied answer' l woken =>
          rw [hOutcome] at hAfter
          cases (Prod.mk.inj hAfter).1
          exact absurd hThread (hNotWaiting _ _)
        | waiting | faulted =>
          rw [hOutcome] at hAfter
          cases (Prod.mk.inj hAfter).1

/-- A call for no row that succeeds is answered in earnest. -/
theorem Stride.executed {c : Call} {value : c.Answer}
    (hStride : Stride env s (.answered a c (.ok value)) s') (hSound : s.Sound)
    (hRow : c.row? = none) : ∃ (l : Ledger) (woken : List Agent), l.store = s.ledger.store ∧
      l.execute env a c = .replied (.ok value) s'.ledger woken := by
  obtain ⟨woken, hPerform⟩ := hStride.performed hSound hRow
  obtain ⟨l, hStore, hEarnest | ⟨reason, hRefused⟩⟩ := Ledger.perform_eq env s.ledger a c
  · exact ⟨l, woken, hStore, hEarnest.symm.trans hPerform⟩
  · rw [hRefused] at hPerform
    cases c <;> cases hPerform

/-! ## The calls that an agent makes -/

/-- An agent makes no other calls than those its program has. -/
theorem Course.calls {jobs : Agent → Job} {l : Ledger} {P : Call → Prop}
    (hResting : l.store.Resting) (hCourse : Course env (start jobs l) trace s)
    (hCalls : (jobs a).program.Calls P) :
    (∀ c answer, .answered a c answer ∈ trace → P c) ∧
      ∀ program, (s.threads a).rest? = some program → program.Calls P := by
  -- on the course: what is left of the program has no other calls either
  induction hCourse with
  | nil =>
    refine ⟨fun c answer hMem => absurd hMem List.not_mem_nil, fun program hRest => ?_⟩
    exact Thread.calls_ofProgram hCalls hRest
  | @snoc trace s s' e hCourse hStride ih =>
    have hSound := hCourse.sound (sound_start hResting jobs)
    by_cases hAgent : e.agent? = some a
    · obtain ⟨c, next, answer, rfl, hNow, hThread, -⟩ | ⟨row, rfl, hThread, -⟩ | ⟨hEnd, hThread, -⟩ :=
        hStride.cases hSound hAgent
      · have hCall := ih.2 _ hNow
        refine ⟨fun c' answer' hMem => ?_, ?_⟩
        · rcases List.mem_append.mp hMem with hOld | hNew
          · exact ih.1 c' answer' hOld
          · cases List.mem_singleton.mp hNew
            exact hCall.1
        · rw [hThread]
          exact fun program hRest => Thread.calls_ofProgram (hCall.2 answer) hRest
      · refine ⟨fun c' answer' hMem => ih.1 c' answer' ?_, ?_⟩
        · simpa using hMem
        · rw [hThread]
          exact ih.2
      · refine ⟨fun c' answer' hMem => ih.1 c' answer' ?_, ?_⟩
        · rcases hEnd with ⟨fault, rfl⟩ | rfl <;> simpa using hMem
        · rw [hThread]
          rintro program ⟨⟩
    · refine ⟨fun c' answer' hMem => ih.1 c' answer' ?_, ?_⟩
      · refine (List.mem_append.mp hMem).resolve_right fun hNew => hAgent ?_
        rw [← List.mem_singleton.mp hNew]
        rfl
      · rw [(hStride.frame hSound hAgent).1]
        exact ih.2

end Crowd

end Purse
