import Purse.Proofs.Crowd.Jobs

/-!
# What commands do

`Job.Does` says what a command that succeeds does to the committed wallets: a top-up adjusts one of
them, a transfer two. A command does it in one step, the last one; by every other step it changes no
committed wallet.

## Results

* `turn?_command`: the turns of a command: those that change nothing, and the one that succeeds.
* `Run.ended`: an agent that is done stays so.
-/

namespace Purse

/-- What a command that succeeds does to the committed wallets. -/
def Job.Does (wallet? wallet?' : WalletId → Option Wallet) : Job → Prop
  | topup request => ∃ r id w w' now, request = some r ∧ r.key.isEmpty = false ∧
    r.check = .ok id ∧ wallet? id = some w ∧ w.adjust r.amount now = .ok w' ∧
    wallet?' = Function.update wallet? id (some w')
  | transfer request => ∃ r legs sender receiver sender' receiver' now now', request = some r ∧
    r.check = .ok legs ∧ legs.Ready ⟨[], wallet?⟩ sender receiver ∧
    sender.adjust legs.amount.neg now = .ok sender' ∧
    receiver.adjust legs.amount now' = .ok receiver' ∧
    wallet?' = Function.update (Function.update wallet? sender.id (some sender')) receiver.id
      (some receiver')
  | other _ _ => False

/-- A top-up or a transfer that succeeds makes no wallet and removes none. -/
theorem Job.Does.isSome_eq {job : Job} {wallet? wallet?' : WalletId → Option Wallet}
    (hDoes : job.Does wallet? wallet?') (x : WalletId) :
    (wallet?' x).isSome = (wallet? x).isSome := by
  cases job with
  | topup request =>
    obtain ⟨r, id, w, w', now, -, -, -, hWallet, -, rfl⟩ := hDoes
    rw [Function.update_apply]
    split
    · next hx => rw [hx, hWallet]; rfl
    · rfl
  | transfer request =>
    obtain ⟨r, legs, sender, receiver, sender', receiver', now, now', -, -, hReady, -, -, rfl⟩ := hDoes
    rw [Function.update_apply, Function.update_apply]
    split
    · next hx =>
      rw [hx, hReady.creditor.id, show wallet? legs.receiver.wallet = _ from hReady.creditor.committed]
      rfl
    · split
      · next hx =>
        rw [hx, hReady.debtor.id, show wallet? legs.sender.wallet = _ from hReady.debtor.committed]
        rfl
      · rfl
  | other program hOrderly => exact hDoes.elim

/-- What a transfer shows before its commit: the two copies, and all else as committed. -/
theorem View.shown?_inOrder {v : View} {legs : Legs} {sender receiver : Wallet}
    (hCopies : v.copies = legs.inOrder sender receiver) (hDistinct : sender.id ≠ receiver.id) :
    v.shown? = Function.update (Function.update v.wallet? sender.id (some sender)) receiver.id
      (some receiver) := by
  funext id
  unfold View.shown? View.copy?
  rw [hCopies, Function.update_apply, Function.update_apply]
  split
  · next hReceiver =>
    rw [hReceiver, Legs.find?_receiver hDistinct]
    rfl
  · next hReceiver =>
    split
    · next hSender =>
      rw [hSender, Legs.find?_sender hDistinct]
      rfl
    · -- no copy of any other wallet
      next hSender =>
      have hNone : (legs.inOrder sender receiver).find? (·.id = id) = none := by
        rw [List.find?_eq_none]
        intro w hMem
        rcases Legs.mem_inOrder.mp hMem with rfl | rfl
        · simpa using Ne.symm hSender
        · simpa using Ne.symm hReceiver
      rw [hNone]
      rfl

namespace Crowd

variable {env : Surroundings} {s s' : Crowd} {a b : Agent} {e : Event} {trace : List Event}
  {jobs : Agent → Job}

/-- A turn of a command that does not make it succeed. -/
structure Quiet (e : Event) (t : Thread) : Prop where
  quiet : e.isLoud = false
  unfinished : ∀ reply, t ≠ .ended (.result (.ok reply))

/-- The turn by which a command succeeds. -/
structure Succeeds (a : Agent) (job : Job) (s : Crowd) (e : Event) (s' : Crowd) : Prop where
  loud : e.isLoud = true
  commits : e.commits? = some a
  ended : s'.threads a = .ended (.result (.ok .unit))
  does : job.Does s.ledger.store.wallet? s'.ledger.store.wallet?

/-- A turn at which the call is not answered makes nobody succeed. -/
theorem turn?_quiet_or {c : Call} {next : Result c.Answer → Program Reply} (hSound : s.Sound)
    (hTurn : s.turn? env a = some (e, s')) (hRest : (s.threads a).rest? = some (.call c next)) :
    Quiet e (s'.threads a) ∨ ∃ answer, e = .answered a c answer ∧
      s'.threads a = .ofProgram (next answer) ∧
      Told (s.ledger.store.view a) (s'.ledger.store.view a) c answer := by
  obtain hAnswered | ⟨row, rfl, hThread, -⟩ | ⟨fault, rfl, hThread, -⟩ :=
    turn?_cases hSound hTurn hRest
  · exact Or.inr hAnswered
  · refine Or.inl ⟨rfl, ?_⟩
    rw [hThread]
    rintro _ ⟨⟩
  · refine Or.inl ⟨rfl, ?_⟩
    rw [hThread]
    rintro _ ⟨⟩

/-- Only after its commit can a transfer be over with success. -/
theorem after_ne_ok {legs : Legs} {stage : Stage} {answer : Result (stage.call legs).Answer}
    (hCall : stage.call legs ≠ .commit) (value : Unit) :
    stage.after legs answer ≠ .inr (.ok value) := by
  cases stage with
  | committing sender receiver => exact absurd rfl hCall
  | undoing e => rintro ⟨⟩
  | _ => cases answer <;> rintro ⟨⟩

/-- A transfer that goes on, or is over with an error, is not over with success. -/
theorem unfinished_rest {legs : Legs} {next : Stage ⊕ Result Unit}
    (hNext : ∀ value, next ≠ .inr (.ok value)) (reply : Reply) :
    Thread.ofProgram (Stage.rest legs next) ≠ .ended (.result (.ok reply)) := by
  rcases next with stage | e | value
  · show Thread.ofProgram (stage.program legs) ≠ _
    rw [stage.program_eq]
    rintro ⟨⟩
  · rintro ⟨⟩
  · exact absurd rfl (hNext value)

/-- The turns of a transfer. -/
theorem turn?_transfer {r : Transfer} {legs : Legs} {stage : Stage} (hSound : s.Sound)
    (hTurn : s.turn? env a = some (e, s')) (hCheck : r.check = .ok legs)
    (hRest : (s.threads a).rest? = some (stage.program legs))
    (hHolds : stage.Holds legs (s.ledger.store.view a)) :
    Quiet e (s'.threads a) ∨ Succeeds a (.transfer (some r)) s e s' := by
  rw [stage.program_eq] at hRest
  obtain hQuiet | ⟨answer, rfl, hThread, hTold⟩ := turn?_quiet_or hSound hTurn hRest
  · exact Or.inl hQuiet
  · by_cases hCall : stage.call legs = .commit
    · cases stage with
      | committing sender receiver =>
        cases answer with
        | error reason =>
          refine Or.inl ⟨rfl, ?_⟩
          rw [hThread]
          rintro _ ⟨⟩
        | ok committed =>
          obtain ⟨hReady, sender', receiver', now, now', hDebit, hCredit, hCopies⟩ := hHolds
          have hDistinct : sender'.id ≠ receiver'.id := by
            rw [Store.id_of_adjust hDebit, Store.id_of_adjust hCredit]
            exact hReady.distinct
          refine Or.inr ⟨rfl, rfl, hThread, r, legs, sender, receiver, sender', receiver', now,
            now', rfl, hCheck, hReady.congr rfl rfl, hDebit, hCredit, ?_⟩
          -- what the transaction has shown is what the wallets are now
          have hWallets : s'.ledger.store.wallet? = (s.ledger.store.view a).shown? := hTold.2
          rw [hWallets, View.shown?_inOrder hCopies hDistinct, Store.id_of_adjust hDebit,
            Store.id_of_adjust hCredit]
          rfl
      | _ => cases hCall
    · -- before the commit nothing is published, and nobody is done with success
      refine Or.inl ⟨isLoud_answered hCall, ?_⟩
      rw [hThread]
      exact unfinished_rest (after_ne_ok hCall)

/-- The turn of a top-up that asks for its key. -/
theorem turn?_claim {r : Topup} (hSound : s.Sound) (hTurn : s.turn? env a = some (e, s'))
    (hRest : (s.threads a).rest? = some (.call (.claim r.key) r.claimed)) :
    Quiet e (s'.threads a) := by
  obtain hQuiet | ⟨answer, rfl, hThread, -⟩ := turn?_quiet_or hSound hTurn hRest
  · exact hQuiet
  · refine ⟨by cases answer <;> rfl, ?_⟩
    rw [hThread]
    rcases answer with reason | _ | _
    · rintro _ ⟨⟩
    · show ∀ reply, Thread.ofProgram r.applying ≠ _
      unfold Topup.applying
      split <;> rintro _ ⟨⟩
    · rintro _ ⟨⟩

/-- The turn of a top-up whose key is claimed. -/
theorem turn?_applying {r : Topup} (hSound : s.Sound) (hTurn : s.turn? env a = some (e, s'))
    (hKey : r.key.isEmpty = false) (hRest : (s.threads a).rest? = some r.applying) :
    Quiet e (s'.threads a) ∨ Succeeds a (.topup (some r)) s e s' := by
  unfold Topup.applying at hRest
  cases hCheck : r.check with
  | error reason =>
    simp only [hCheck] at hRest
    obtain hQuiet | ⟨answer, rfl, hThread, -⟩ := turn?_quiet_or hSound hTurn hRest
    · exact Or.inl hQuiet
    · refine Or.inl ⟨by cases answer <;> rfl, ?_⟩
      rw [hThread]
      rintro _ ⟨⟩
  | ok id =>
    simp only [hCheck] at hRest
    obtain hQuiet | ⟨answer, rfl, hThread, hTold⟩ := turn?_quiet_or hSound hTurn hRest
    · exact Or.inl hQuiet
    · cases answer with
      | error reason =>
        refine Or.inl ⟨rfl, ?_⟩
        rw [hThread]
        rintro _ ⟨⟩
      | ok added =>
        obtain ⟨-, w, w', now, hWallet, hAdjust, hNow⟩ := hTold
        exact Or.inr ⟨rfl, rfl, hThread, r, id, w, w', now, rfl, hKey, hCheck, hWallet, hAdjust,
          hNow⟩

/-- The turns of a command: it succeeds by one of them, and the others change nothing. -/
theorem turn?_command (hSound : s.Sound) (hAlong : s.Along jobs)
    (hCommand : (jobs a).isCommand = true) (hTurn : s.turn? env a = some (e, s')) :
    Quiet e (s'.threads a) ∨ Succeeds a (jobs a) s e s' := by
  have hMine := hAlong a
  have hBusy : (s.threads a).isEnded ≠ true := fun hEnded => by
    simp [turn?_of_isEnded hEnded] at hTurn
  cases hJob : jobs a with
  | topup request =>
    rw [hJob] at hMine
    obtain ⟨-, hEnded | ⟨r, rfl, hKey, hRest | hRest⟩⟩ := hMine
    · exact absurd hEnded hBusy
    · exact Or.inl (turn?_claim hSound hTurn hRest)
    · exact turn?_applying hSound hTurn hKey hRest
  | transfer request =>
    rw [hJob] at hMine
    obtain ⟨hEnded, -⟩ | ⟨r, legs, stage, rfl, hCheck, hRest, hHolds⟩ := hMine
    · exact absurd hEnded hBusy
    · exact turn?_transfer hSound hTurn hCheck hRest hHolds
  | other program hOrderly => simp [hJob, Job.isCommand] at hCommand

/-- The steps of a command: it succeeds by one of them, and the others change nothing. -/
theorem Step.command (hStep : Step env s e s') (hSound : s.Sound) (hAlong : s.Along jobs)
    (hCommand : (jobs a).isCommand = true) (hAgent : e.agent? = some a) :
    Quiet e (s'.threads a) ∨ Succeeds a (jobs a) s e s' := by
  cases hStep with
  | @turn _ _ b hTurn =>
    obtain rfl : b = a := Option.some.inj ((agent?_turn? hTurn).symm.trans hAgent)
    exact turn?_command hSound hAlong hCommand hTurn
  | @drop b hBusy =>
    obtain rfl : b = a := Option.some.inj hAgent
    refine Or.inl ⟨rfl, ?_⟩
    show ∀ reply, (s.goOn b _ (.ended _)).threads b ≠ _
    rw [threads_goOn]
    rintro _ ⟨⟩
  | aside => simp [Event.agent?] at hAgent

/-- An agent that is done takes no step. -/
theorem Step.agent?_ne_of_isEnded (hStep : Step env s e s')
    (hEnded : (s.threads a).isEnded = true) : e.agent? ≠ some a := by
  intro hAgent
  cases hStep with
  | @turn _ _ b hTurn =>
    obtain rfl : b = a := Option.some.inj ((agent?_turn? hTurn).symm.trans hAgent)
    simp [turn?_of_isEnded hEnded] at hTurn
  | @drop b hBusy =>
    obtain rfl : b = a := Option.some.inj hAgent
    simp [hEnded] at hBusy
  | aside => simp [Event.agent?] at hAgent

/-- An agent that is done stays so. -/
theorem Run.ended {ending : Ending} (hRun : Run env s trace s') (hSound : s.Sound)
    (hEnded : s.threads a = .ended ending) : s'.threads a = .ended ending := by
  induction hRun with
  | nil => exact hEnded
  | snoc hRun hStep ih =>
    have hNow := hRun.sound hSound
    have hNot : _ ≠ some a := hStep.agent?_ne_of_isEnded (by rw [ih]; rfl)
    rw [(hStep.frame hNow hNot).1]
    exact ih

end Crowd

end Purse
