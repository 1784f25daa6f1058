import Purse.Proofs.Crowd.Answers
import Purse.Proofs.Crowd.Programs

/-!
# Steps of a crowd

Each step of a crowd is told in moves (`Step.acts`), and a turn by the call that is made and by what
is seen of it (`turn_told`). A crowd is `Sound` when its store is coherent with the rows that its
agents wait for, and every agent has one transaction at a time; a crowd that starts over a resting
store is sound, and stays so.

## Results

* `Step.sound`, `Run.sound`: a sound crowd stays sound.
* `Step.frame`: an agent whose step it was not keeps its place in its program, its copies, the rows
  it holds and their wallets.
* `Step.beside`: a step leaves the others in every line, in their order.
* `Step.wallet?_eq`: only a loud step changes a committed wallet.
* `Sound.out`: an agent that is done has no copies and stands in no line.
-/

namespace Purse

namespace Thread

/-- What is left of an agent's program. -/
def rest? : Thread → Option (Program Reply)
  | .calling c next | .waiting c next _ => some (.call c next)
  | .ended _ => none

/-- What an agent has left to do, and the row it waits for, if any, are in order. -/
def Orderly (isOpen : Bool) : Thread → Prop
  | .calling c next => (Program.call c next).Orderly isOpen
  | .waiting c next row => (Program.call c next).Orderly isOpen ∧ c.row? = some row
  | .ended _ => isOpen = false

theorem orderly_ofProgram {program : Program Reply} {isOpen : Bool}
    (hOrderly : program.Orderly isOpen) : (ofProgram program).Orderly isOpen := by
  cases program with
  | done result => exact hOrderly
  | call c next => exact hOrderly

@[simp] theorem row?_ofProgram (program : Program Reply) : (ofProgram program).row? = none := by
  cases program <;> rfl

end Thread

namespace Crowd

variable {env : Surroundings} {s s' : Crowd} {a b : Agent} {e : Event} {trace : List Event}

/-- The store is coherent with the rows that agents wait for, and each agent has one transaction at
a time. -/
structure Sound (s : Crowd) : Prop where
  coherent : s.ledger.store.Coherent s.pending
  orderly : ∀ a, ∃ isOpen, (s.threads a).Orderly isOpen ∧
    (isOpen = false → s.ledger.store.copies a = [])

theorem sound_start {l : Ledger} (hResting : l.store.Resting) (jobs : Agent → Job) :
    (start jobs l).Sound where
  coherent := by
    have hPending : (start jobs l).pending = fun _ => none :=
      funext fun a => Thread.row?_ofProgram _
    rw [hPending]
    exact hResting.coherent
  orderly a := ⟨false, Thread.orderly_ofProgram (jobs a).orderly, fun _ => hResting.idle a⟩

/-- An agent that is dropped has no copies. -/
theorem copies_abandon (l : Ledger) (a : Agent) (row : Option WalletId) :
    (l.abandon a row).1.store.copies a = [] := by
  unfold Ledger.abandon
  cases row <;> exact (Store.copies_drop _ a a).trans (if_pos rfl)

/-! ## Turns -/

theorem threads_goOn (l : Ledger) (t : Thread) : (s.goOn a l t).threads a = t :=
  Function.update_self ..

theorem pending_goOn (l : Ledger) (t : Thread) :
    (s.goOn a l t).pending = Function.update s.pending a t.row? := by
  funext b
  unfold pending goOn
  by_cases hb : b = a
  · subst hb
    simp
  · simp [hb]

/-- A turn is a call, or the rest of one, that is told in moves and by what the agent sees. -/
theorem turn_told (hSound : s.Sound) (hTurn : s.turn? env a = some (e, s')) :
    ∃ (c : Call) (next : Result c.Answer → Program Reply) (outcome : Outcome c) (isOpen : Bool),
      (s.threads a).rest? = some (.call c next) ∧ (e, s') = s.after a next outcome ∧
      (Program.call c next).Orderly isOpen ∧
      (isOpen = false → s.ledger.store.copies a = []) ∧
      outcome.Told (s.ledger.store.view a) a ∧
      Store.Moves a outcome.isLoud (s.pending a, s.ledger.store) (outcome.row?, outcome.store) := by
  obtain ⟨isOpen, hOrderly, hClosed⟩ := hSound.orderly a
  obtain ⟨c, next, ⟨hThread, hAfter⟩ | ⟨row, hThread, hHolds, hAfter⟩⟩ := turn?_eq_some hTurn
  · -- its next call, made from where nothing is waited for
    have hIdle : s.pending a = none := by
      unfold pending
      rw [hThread]
      rfl
    rw [hThread] at hOrderly
    refine ⟨c, next, _, isOpen, by rw [hThread]; rfl, hAfter, hOrderly, hClosed, ?_, ?_⟩
    · exact Ledger.perform_told hSound.coherent hOrderly.1 hClosed
    · rw [hIdle]
      exact Ledger.perform_moves hOrderly.1 hClosed hSound.coherent.keyed
  · -- the rest of its call, made from where it has been given the row
    have hPending : s.pending a = some row := by
      unfold pending
      rw [hThread]
      rfl
    have hNew := hSound.coherent.apart hPending
    rw [hThread] at hOrderly
    refine ⟨c, next, _, isOpen, by rw [hThread]; rfl, hAfter, hOrderly.1, hClosed, ?_, ?_⟩
    · exact Ledger.resume_told hSound.coherent hOrderly.2 hNew
    · rw [hPending]
      exact Ledger.resume_moves hOrderly.2 (Store.holds_iff.mp hHolds) hNew hSound.coherent.keyed

/-- What an agent's call comes to, told in moves. -/
theorem after_moves {c : Call} {next : Result c.Answer → Program Reply} {outcome : Outcome c}
    {p : Option WalletId × Store} (hMoves : Store.Moves a outcome.isLoud p
      (outcome.row?, outcome.store)) :
    Store.Moves a (s.after a next outcome).1.isLoud p
      ((s.after a next outcome).2.pending a, (s.after a next outcome).2.ledger.store) := by
  cases outcome with
  | replied answer l woken =>
    have hIdle : (s.goOn a l (.ofProgram (next answer))).pending a = none := by
      rw [pending_goOn, Function.update_self, Thread.row?_ofProgram]
    show Store.Moves a _ p ((s.goOn a l (.ofProgram (next answer))).pending a, l.store)
    rw [hIdle]
    cases answer with
    | ok value => exact hMoves
    | error e => exact hMoves
  | waiting row l =>
    show Store.Moves a _ p ((s.goOn a l (.waiting c next row)).pending a, l.store)
    rw [pending_goOn, Function.update_self]
    exact hMoves
  | faulted fault l =>
    -- the agent is dropped on top of what the call did
    show Store.Moves a _ p ((s.goOn a _ (.ended (.fault fault))).pending a, _)
    rw [pending_goOn, Function.update_self]
    exact hMoves.trans (Ledger.abandon_moves none)

/-! ## Steps -/

/-- A step by an agent, told in moves: nobody else goes on. -/
structure Acts (s : Crowd) (a : Agent) (loud : Bool) (s' : Crowd) : Prop where
  moves : Store.Moves a loud (s.pending a, s.ledger.store) (s'.pending a, s'.ledger.store)
  others : ∀ b, b ≠ a → s'.threads b = s.threads b

theorem threads_after {c : Call} {next : Result c.Answer → Program Reply} {outcome : Outcome c}
    (hb : b ≠ a) : (s.after a next outcome).2.threads b = s.threads b := by
  cases outcome <;> exact Function.update_of_ne hb _ _

theorem agent?_after {c : Call} {next : Result c.Answer → Program Reply} {outcome : Outcome c} :
    (s.after a next outcome).1.agent? = some a := by
  cases outcome <;> rfl

/-- A turn is somebody's call with its outcome. -/
theorem turn?_after (hTurn : s.turn? env a = some (e, s')) :
    ∃ (c : Call) (next : Result c.Answer → Program Reply) (outcome : Outcome c),
      (e, s') = s.after a next outcome := by
  obtain ⟨c, next, ⟨-, hAfter⟩ | ⟨row, -, -, hAfter⟩⟩ := turn?_eq_some hTurn
  · exact ⟨c, next, _, hAfter⟩
  · exact ⟨c, next, _, hAfter⟩

theorem agent?_turn? (hTurn : s.turn? env a = some (e, s')) : e.agent? = some a := by
  obtain ⟨c, next, outcome, hAfter⟩ := turn?_after hTurn
  obtain ⟨rfl, -⟩ := Prod.mk.inj hAfter
  exact agent?_after

/-- An agent's turn leaves the others where they are in their programs. -/
theorem threads_turn? (hTurn : s.turn? env a = some (e, s')) (hb : b ≠ a) :
    s'.threads b = s.threads b := by
  obtain ⟨c, next, outcome, hAfter⟩ := turn?_after hTurn
  obtain ⟨-, rfl⟩ := Prod.mk.inj hAfter
  exact threads_after hb

/-- A step is some moves by the agent whose step it was, or by anybody if it was nobody's. -/
theorem Step.acts (hStep : Step env s e s') (hSound : s.Sound)
    (hAgent : e.agent? = some a ∨ e.agent? = none) : s.Acts a e.isLoud s' := by
  cases hStep with
  | @turn _ _ b hTurn =>
    have hOwn := agent?_turn? hTurn
    obtain rfl : b = a := by simpa [hOwn] using hAgent
    obtain ⟨c, next, outcome, -, -, hAfter, -, -, -, hMoves⟩ := turn_told hSound hTurn
    obtain ⟨rfl, rfl⟩ := Prod.mk.inj hAfter
    exact ⟨after_moves hMoves, fun _ hb => threads_after hb⟩
  | @drop b hBusy =>
    obtain rfl : b = a := by simpa [Event.agent?] using hAgent
    refine ⟨?_, fun _ hb => Function.update_of_ne hb _ _⟩
    unfold dropped
    rw [pending_goOn, Function.update_self]
    exact Ledger.abandon_moves _
  | aside hRows hTransactions => exact ⟨.single (.aside hRows hTransactions), fun _ _ => rfl⟩

theorem Step.exists_acts (hStep : Step env s e s') (hSound : s.Sound) :
    ∃ a, s.Acts a e.isLoud s' := by
  cases hAgent : e.agent? with
  | none => exact ⟨0, hStep.acts hSound (Or.inr hAgent)⟩
  | some a => exact ⟨a, hStep.acts hSound (Or.inl hAgent)⟩

/-- To an agent whose step it was not, a step is some moves by another agent. -/
theorem Step.acts_of_ne (hStep : Step env s e s') (hSound : s.Sound) (hb : e.agent? ≠ some b) :
    ∃ a, b ≠ a ∧ s.Acts a e.isLoud s' := by
  cases hAgent : e.agent? with
  | none => exact ⟨b + 1, (Nat.succ_ne_self b).symm, hStep.acts hSound (Or.inr hAgent)⟩
  | some a =>
    refine ⟨a, ?_, hStep.acts hSound (Or.inl hAgent)⟩
    rintro rfl
    exact hb hAgent

theorem Acts.pending_eq {loud : Bool} (hActs : s.Acts a loud s') :
    s'.pending = Function.update s.pending a (s'.pending a) := by
  funext b
  by_cases hb : b = a
  · subst hb
    rw [Function.update_self]
  · rw [Function.update_of_ne hb]
    exact congrArg Thread.row? (hActs.others b hb)

theorem Acts.coherent {loud : Bool} (hActs : s.Acts a loud s') (hSound : s.Sound) :
    s'.ledger.store.Coherent s'.pending := by
  rw [hActs.pending_eq]
  exact Store.Moves.coherent hActs.moves hSound.coherent rfl

/-- An agent that did not act is where it was: in its program, with its copies, with the rows it
holds and their wallets. -/
theorem Acts.frame {loud : Bool} (hActs : s.Acts a loud s') (hSound : s.Sound) (hb : b ≠ a) :
    s'.threads b = s.threads b ∧ s'.ledger.store.copies b = s.ledger.store.copies b ∧
      ∀ id, s.ledger.store.holder? id = some b → s'.ledger.store.holder? id = some b ∧
        s'.ledger.store.wallet? id = s.ledger.store.wallet? id := by
  refine ⟨hActs.others b hb, Store.Moves.copies_eq hActs.moves hb, fun id hHolder => ⟨?_, ?_⟩⟩
  · exact Store.Moves.holder?_eq hActs.moves hSound.coherent rfl hb hHolder
  · exact Store.Moves.wallet?_of_holder? hActs.moves hSound.coherent rfl hb hHolder

/-- Acts that are not loud change no committed wallet. -/
theorem Acts.wallet?_eq (hActs : s.Acts a false s') (hSound : s.Sound) (id : WalletId) :
    s'.ledger.store.wallet? id = s.ledger.store.wallet? id :=
  Store.Moves.wallet?_eq hActs.moves hSound.coherent rfl id

/-! ## A sound crowd stays sound -/

theorem Step.coherent (hStep : Step env s e s') (hSound : s.Sound) :
    s'.ledger.store.Coherent s'.pending := by
  obtain ⟨a, hActs⟩ := hStep.exists_acts hSound
  exact hActs.coherent hSound

/-- What an agent has left to do after its turn is in order. -/
theorem orderly_turn? (hSound : s.Sound) (hTurn : s.turn? env a = some (e, s')) :
    ∃ isOpen, (s'.threads a).Orderly isOpen ∧
      (isOpen = false → s'.ledger.store.copies a = []) := by
  obtain ⟨c, next, outcome, isOpen, -, hAfter, ⟨hFits, hNext⟩, hClosed, hTold, -⟩ :=
    turn_told hSound hTurn
  obtain ⟨rfl, rfl⟩ := Prod.mk.inj hAfter
  cases outcome with
  | replied answer l woken =>
    refine ⟨c.leavesOpen isOpen answer, ?_, fun hShut => hTold.closed hFits hClosed hShut⟩
    show ((s.goOn a l (.ofProgram (next answer))).threads a).Orderly _
    rw [threads_goOn]
    exact Thread.orderly_ofProgram (hNext answer)
  | waiting row l =>
    obtain ⟨hRow, -, hSeen⟩ := hTold
    refine ⟨isOpen, ?_, fun hShut => ?_⟩
    · show ((s.goOn a l (.waiting c next row)).threads a).Orderly _
      rw [threads_goOn]
      exact ⟨⟨hFits, hNext⟩, hRow⟩
    · exact (congrArg View.copies hSeen).trans (hClosed hShut)
  | faulted fault l =>
    refine ⟨false, ?_, fun _ => ?_⟩
    · show ((s.goOn a _ (.ended (.fault fault))).threads a).Orderly _
      rw [threads_goOn]
      rfl
    · exact copies_abandon l a none

theorem Step.sound (hStep : Step env s e s') (hSound : s.Sound) : s'.Sound := by
  refine ⟨hStep.coherent hSound, fun b => ?_⟩
  -- the agent whose step it was has been seen to; to the others nothing happened
  by_cases hb : e.agent? = some b
  · cases hStep with
    | @turn _ _ a hTurn =>
      obtain rfl : a = b := Option.some.inj ((agent?_turn? hTurn).symm.trans hb)
      exact orderly_turn? hSound hTurn
    | @drop a hBusy =>
      obtain rfl : a = b := Option.some.inj hb
      refine ⟨false, ?_, fun _ => copies_abandon _ _ _⟩
      show (Function.update s.threads a _ a).Orderly false
      rw [Function.update_self]
      rfl
    | aside => simp [Event.agent?] at hb
  · obtain ⟨a, hNe, hActs⟩ := hStep.acts_of_ne hSound hb
    rw [hActs.others b hNe, Store.Moves.copies_eq hActs.moves hNe]
    exact hSound.orderly b

theorem Run.sound {s₀ : Crowd} (hRun : Run env s₀ trace s) (hSound : s₀.Sound) : s.Sound := by
  induction hRun with
  | nil => exact hSound
  | snoc hRun hStep ih => exact hStep.sound ih

/-! ## What a step leaves alone -/

/-- A step leaves an agent whose step it was not where it is: its program, its copies, the rows it
holds, and their wallets. -/
theorem Step.frame (hStep : Step env s e s') (hSound : s.Sound) (hb : e.agent? ≠ some b) :
    s'.threads b = s.threads b ∧ s'.ledger.store.copies b = s.ledger.store.copies b ∧
      ∀ id, s.ledger.store.holder? id = some b → s'.ledger.store.holder? id = some b ∧
        s'.ledger.store.wallet? id = s.ledger.store.wallet? id := by
  obtain ⟨a, hNe, hActs⟩ := hStep.acts_of_ne hSound hb
  exact hActs.frame hSound hNe

/-- A step by an agent leaves the others in every line, in their order. -/
theorem Step.beside (hStep : Step env s e s') (hSound : s.Sound) (hAgent : e.agent? = some a)
    (id : WalletId) : Beside a (s.ledger.store.line id) (s'.ledger.store.line id) :=
  Store.Moves.beside (hStep.acts hSound (Or.inl hAgent)).moves hSound.coherent rfl id

/-- A step that is not loud changes no committed wallet. -/
theorem Step.wallet?_eq (hStep : Step env s e s') (hSound : s.Sound) (hQuiet : e.isLoud = false)
    (id : WalletId) : s'.ledger.store.wallet? id = s.ledger.store.wallet? id := by
  obtain ⟨a, hActs⟩ := hStep.exists_acts hSound
  rw [hQuiet] at hActs
  exact hActs.wallet?_eq hSound id

/-! ## Agents that are done -/

/-- An agent that is done has no copies and stands in no line. -/
theorem Sound.out {ending : Ending} (hSound : s.Sound) (hEnded : s.threads a = .ended ending) :
    s.ledger.store.copies a = [] ∧ ∀ id, a ∉ s.ledger.store.line id := by
  obtain ⟨isOpen, hOrderly, hClosed⟩ := hSound.orderly a
  have hPending : s.pending a = none := by
    unfold pending
    rw [hEnded]
    rfl
  rw [hEnded] at hOrderly
  have hNone := hClosed hOrderly
  refine ⟨hNone, fun id => hSound.coherent.not_mem_line hPending ?_⟩
  rw [Store.locked, hNone]
  exact List.not_mem_nil

end Crowd

end Purse
