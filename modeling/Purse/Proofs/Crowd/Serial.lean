import Mathlib.Data.List.Nodup
import Purse.Proofs.Crowd.Alone
import Purse.Proofs.Crowd.Play
import Purse.Proofs.Crowd.Refusals

/-!
# Serializability

Commands in a crowd come to what they come to one at a time. The commands that have committed, run by
themselves in the order in which they did, all succeed, and leave the balances that the crowd has left
(`Store.serially?`). That order is also the one by which a transfer is told that a balance is
insufficient: at the step at which it saw this, the balance was what the commands committed until then
leave of it.

## Results

* `Step.quiet_or_succeeds`: a step changes no wallet, or a command succeeds by it.
* `Run.mem_commits_iff`, `Run.nodup_commits`: the commands that have committed are those that are done
  with success.
* `Run.exists_serially`: the wallets of a crowd, and those of the serial run.
* `Run.serializable`: both of the above.
-/

namespace Purse

/-- What jobs that are run one at a time leave of a store, if each of them succeeds. -/
def Store.serially? (env : Surroundings) (s : Store) (jobs : List Job) : Option Store :=
  jobs.foldlM (fun s job => s.alone? env job) s

theorem Store.serially?_concat {env : Surroundings} {s s' : Store} {jobs : List Job} {job : Job}
    (hSerial : s.serially? env jobs = some s') :
    s.serially? env (jobs ++ [job]) = s'.alone? env job := by
  unfold serially? at *
  rw [List.foldlM_append, hSerial]
  show (s'.alone? env job >>= fun s => some s) = _
  cases s'.alone? env job <;> rfl

theorem commits_concat (trace : List Event) (e : Event) :
    commits (trace ++ [e]) = commits trace ++ e.commits?.toList := by
  unfold commits
  rw [List.filterMap_append]
  cases hCommits : e.commits? <;> simp [hCommits]

/-- No wallet of these is below zero. -/
def NoneBelowZero (wallet? : WalletId → Option Wallet) : Prop :=
  ∀ id w, wallet? id = some w → w.balance.isBelowZero = false

theorem NoneBelowZero.update {wallet? : WalletId → Option Wallet} {w w' : Wallet} {amount : Decimal}
    {now : Timestamp} (hNone : NoneBelowZero wallet?) (hAdjust : w.adjust amount now = .ok w')
    (id : WalletId) : NoneBelowZero (Function.update wallet? id (some w')) := by
  intro x v hWallet
  by_cases hx : x = id
  · subst hx
    rw [Function.update_self] at hWallet
    obtain rfl := Option.some.inj hWallet
    exact (Wallet.adjust_ok hAdjust).2.2.1
  · rw [Function.update_of_ne hx] at hWallet
    exact hNone x v hWallet

theorem NoneBelowZero.ofWallets {ws : List Wallet}
    (hNone : ∀ w ∈ ws, w.balance.isBelowZero = false) :
    NoneBelowZero (Store.ofWallets ws).wallet? := by
  refine Store.ofWallets_induction (P := fun s => NoneBelowZero s.wallet?) ?_ ?_
  · rintro id w ⟨⟩
  intro w hMem s s' hInsert hStore id v hWallet
  obtain ⟨row, hRow, rfl⟩ := Store.exists_row_of_wallet? hWallet
  rw [(Store.insert_eq_ok hInsert).2.1] at hRow
  split at hRow
  · rw [← Option.some.inj hRow]
    exact hNone w hMem
  · exact hStore id _ (Store.wallet?_of_get? hRow)

/-- No command takes a wallet below zero. -/
theorem Job.Does.noneBelowZero {job : Job} {wallet? wallet?' : WalletId → Option Wallet}
    (hDoes : job.Does wallet? wallet?') (hNone : NoneBelowZero wallet?) :
    NoneBelowZero wallet?' := by
  cases job with
  | topup request =>
    obtain ⟨r, id, w, w', now, -, -, -, -, hAdjust, rfl⟩ := hDoes
    exact hNone.update hAdjust id
  | transfer request =>
    obtain ⟨r, legs, sender, receiver, sender', receiver', now, now', -, -, -, hDebit, hCredit,
      rfl⟩ := hDoes
    exact (hNone.update hDebit _).update hCredit _
  | other program hOrderly => exact hDoes.elim

/-- What a transfer sees of alike wallets. -/
theorem Legs.Short.alike {legs : Legs} {wallet? wallet?' : WalletId → Option Wallet} {a : Agent}
    {e : Event} (hShort : legs.Short wallet? a e) (hAlike : WalletsAlike wallet? wallet?') :
    legs.Short wallet?' a e := by
  obtain ⟨found, w, hEvent, hWallet, hBelow⟩ | ⟨w, hEvent, hWallet, hBelow⟩ := hShort
  · obtain ⟨v, hOther, hSame⟩ := hAlike.exists_of_some hWallet
    exact Or.inl ⟨found, v, hEvent, hOther, by rw [hSame.balance_eq]; exact hBelow⟩
  · obtain ⟨v, hOther, hSame⟩ := hAlike.exists_of_some hWallet
    exact Or.inr ⟨v, hEvent, hOther, by rw [hSame.balance_eq]; exact hBelow⟩

/-- If no wallet is below zero, it is the sender's balance that is insufficient. -/
theorem Legs.Short.sender {legs : Legs} {wallet? : WalletId → Option Wallet} {a : Agent} {e : Event}
    (hShort : legs.Short wallet? a e) (hProper : legs.Proper) (hNone : NoneBelowZero wallet?) :
    ∃ w, wallet? legs.sender.wallet = some w ∧ w.balance.units < legs.amount.units := by
  obtain ⟨found, w, -, hWallet, hBelow⟩ | ⟨w, -, hWallet, hBelow⟩ := hShort
  · exact ⟨w, hWallet, hBelow⟩
  · have hAbove : 0 ≤ w.balance.units := by simpa [Decimal.isBelowZero] using hNone _ w hWallet
    have hAmount := hProper.amount
    omega

namespace Crowd

variable {env : Surroundings} {s s' : Crowd} {a b : Agent} {e : Event} {trace : List Event}
  {jobs : Agent → Job} {l : Ledger}

-- ---------------------------------------------------------------------------
-- Who has committed
-- ---------------------------------------------------------------------------

/-- A step of a crowd of commands changes no wallet, or a command succeeds by it. -/
theorem Step.quiet_or_succeeds (hStep : Step env s e s') (hSound : s.Sound) (hAlong : s.Along jobs)
    (hCommands : ∀ a, (jobs a).isCommand = true) :
    (e.isLoud = false ∧ e.commits? = none ∧ ∀ a, e.agent? = some a → ∀ reply,
      s'.threads a ≠ .ended (.result (.ok reply))) ∨
    ∃ a, e.agent? = some a ∧ Succeeds a (jobs a) s e s' := by
  -- an event by which somebody commits is loud
  have hLoud : ∀ {a}, e.commits? = some a → e.isLoud = true := by
    intro a hCommits
    unfold Event.commits? at hCommits
    split at hCommits
    · rfl
    · rfl
    · simp at hCommits
  have hSilent : e.isLoud = false → e.commits? = none := by
    intro hQuiet
    cases hCommits : e.commits? with
    | none => rfl
    | some a => simp [hLoud hCommits] at hQuiet
  cases hAgent : e.agent? with
  | none =>
    have hQuiet : e.isLoud = false := by
      cases e <;> first | rfl | simp [Event.agent?] at hAgent
    exact Or.inl ⟨hQuiet, hSilent hQuiet, by simp⟩
  | some a =>
    rcases hStep.command hSound hAlong (hCommands a) hAgent with hQuiet | hSucceeds
    · refine Or.inl ⟨hQuiet.quiet, hSilent hQuiet.quiet, fun b hb => ?_⟩
      obtain rfl := Option.some.inj hb
      exact hQuiet.unfinished
    · exact Or.inr ⟨a, rfl, hSucceeds⟩

/-- No command is done with success before it has begun. -/
theorem threads_start_ne (hCommand : (jobs a).isCommand = true) (reply : Reply) :
    (start jobs l).threads a ≠ .ended (.result (.ok reply)) := by
  show Thread.ofProgram (jobs a).program ≠ _
  cases hJob : jobs a with
  | topup request =>
    cases request with
    | none => rintro ⟨⟩
    | some r =>
      rw [Job.program, toppingUp_some]
      split <;> rintro ⟨⟩
  | transfer request =>
    cases request with
    | none => rintro ⟨⟩
    | some r =>
      rw [Job.program, transferring_some]
      cases r.check with
      | error e => rintro ⟨⟩
      | ok legs =>
        show Thread.ofProgram (Stage.opening.program legs) ≠ _
        rw [Stage.program_eq]
        rintro ⟨⟩
  | other program hOrderly => simp [hJob, Job.isCommand] at hCommand

/-- The commands that have committed are those that are done with success. -/
theorem Run.mem_commits_iff (hResting : l.store.Resting)
    (hCommands : ∀ a, (jobs a).isCommand = true) (hRun : Run env (start jobs l) trace s)
    (a : Agent) : a ∈ commits trace ↔ ∃ reply, s.threads a = .ended (.result (.ok reply)) := by
  induction hRun with
  | nil =>
    refine ⟨fun hMem => absurd hMem List.not_mem_nil, ?_⟩
    rintro ⟨reply, hEnded⟩
    exact absurd hEnded (threads_start_ne (hCommands a) reply)
  | @snoc trace s s' e hRun hStep ih =>
    have hSound := hRun.sound (sound_start hResting jobs)
    have hKept : e.agent? ≠ some a → s'.threads a = s.threads a :=
      fun hNot => (hStep.frame hSound hNot).1
    have hBusy : e.agent? = some a → a ∉ commits trace := by
      intro hAgent hMem
      obtain ⟨reply, hEnded⟩ := ih.mp hMem
      exact hStep.agent?_ne_of_isEnded (by rw [hEnded]; rfl) hAgent
    rw [commits_concat]
    obtain ⟨-, hNone, hUnfinished⟩ | ⟨b, hAgent, hSucceeds⟩ :=
      hStep.quiet_or_succeeds hSound (hRun.along hResting) hCommands
    · rw [hNone, Option.toList_none, List.append_nil]
      by_cases ha : e.agent? = some a
      · -- its own step, by which it is not done
        refine ⟨fun hMem => absurd hMem (hBusy ha), ?_⟩
        rintro ⟨reply, hEnded⟩
        exact absurd hEnded (hUnfinished a ha reply)
      · rw [hKept ha]
        exact ih
    · rw [hSucceeds.commits, Option.toList_some, List.mem_append, List.mem_singleton]
      by_cases ha : a = b
      · -- its own step, by which it is
        subst ha
        exact ⟨fun _ => ⟨.unit, hSucceeds.ended⟩, fun _ => Or.inr rfl⟩
      · rw [hKept (by simp [hAgent, Ne.symm ha]), ← ih]
        simp [ha]

/-- No command commits twice. -/
theorem Run.nodup_commits (hResting : l.store.Resting)
    (hCommands : ∀ a, (jobs a).isCommand = true) (hRun : Run env (start jobs l) trace s) :
    (commits trace).Nodup := by
  induction hRun with
  | nil => exact List.nodup_nil
  | @snoc trace s s' e hRun hStep ih =>
    have hSound := hRun.sound (sound_start hResting jobs)
    rw [commits_concat]
    obtain ⟨-, hNone, -⟩ | ⟨b, hAgent, hSucceeds⟩ :=
      hStep.quiet_or_succeeds hSound (hRun.along hResting) hCommands
    · rw [hNone, Option.toList_none, List.append_nil]
      exact ih
    · -- a command that has committed takes no further step
      have hNew : b ∉ commits trace := by
        intro hMem
        obtain ⟨reply, hEnded⟩ := (hRun.mem_commits_iff hResting hCommands b).mp hMem
        exact hStep.agent?_ne_of_isEnded (by rw [hEnded]; rfl) hAgent
      rw [hSucceeds.commits, Option.toList_some]
      exact List.Nodup.append ih (List.nodup_singleton b) (List.disjoint_singleton.mpr hNew)

-- ---------------------------------------------------------------------------
-- The serial run
-- ---------------------------------------------------------------------------

/-- The commands that have committed all succeed one at a time, and leave the same wallets. -/
theorem Run.exists_serially (hResting : l.store.Resting)
    (hCommands : ∀ a, (jobs a).isCommand = true) (hRun : Run env (start jobs l) trace s)
    (around : Surroundings) :
    ∃ t, l.store.serially? around ((commits trace).map jobs) = some t ∧ t.Resting ∧
      WalletsAlike s.ledger.store.wallet? t.wallet? := by
  induction hRun with
  | nil => exact ⟨l.store, rfl, hResting, .refl _⟩
  | @snoc trace s s' e hRun hStep ih =>
    obtain ⟨t, hSerial, hStill, hAlike⟩ := ih
    have hSound := hRun.sound (sound_start hResting jobs)
    rw [commits_concat]
    obtain ⟨hQuiet, hNone, -⟩ | ⟨b, -, hSucceeds⟩ :=
      hStep.quiet_or_succeeds hSound (hRun.along hResting) hCommands
    · -- nothing committed, and nothing changed
      rw [hNone, Option.toList_none, List.append_nil, funext (hStep.wallet?_eq hSound hQuiet)]
      exact ⟨t, hSerial, hStill, hAlike⟩
    · -- what it has done here it does after those before it
      obtain ⟨t', hAlone, hStill', hAlike'⟩ := hSucceeds.does.alone? hStill hAlike around
      refine ⟨t', ?_, hStill', hAlike'⟩
      rw [hSucceeds.commits, Option.toList_some, List.map_append, List.map_singleton,
        Store.serially?_concat hSerial]
      exact hAlone

/-- Commands take no wallet below zero. -/
theorem Run.noneBelowZero (hResting : l.store.Resting)
    (hCommands : ∀ a, (jobs a).isCommand = true) (hRun : Run env (start jobs l) trace s)
    (hNone : NoneBelowZero l.store.wallet?) : NoneBelowZero s.ledger.store.wallet? := by
  induction hRun with
  | nil => exact hNone
  | @snoc trace s s' e hRun hStep ih =>
    have hSound := hRun.sound (sound_start hResting jobs)
    obtain ⟨hQuiet, -, -⟩ | ⟨b, -, hSucceeds⟩ :=
      hStep.quiet_or_succeeds hSound (hRun.along hResting) hCommands
    · rw [funext (hStep.wallet?_eq hSound hQuiet)]
      exact ih
    · exact hSucceeds.does.noneBelowZero ih

/-- Whatever commands start from a resting store, and in whatever order they take their steps, fail
or are dropped: those that have committed are those that are done with success, each of them once;
one at a time and in that order they all succeed, and leave the balances that the crowd has left. And
when a transfer is answered that a balance is insufficient, it was so at a step of the transfer, by
what the commands committed until then leave one at a time: the sender's balance was below the
amount, or the receiver's stays below zero; and it was the sender's if no wallet was below zero from
the start. -/
theorem Run.serializable (hResting : l.store.Resting)
    (hCommands : ∀ a, (jobs a).isCommand = true) (hRun : Run env (start jobs l) trace s)
    (around : Surroundings) :
    ((commits trace).Nodup ∧
      ∀ a, a ∈ commits trace ↔ ∃ reply, s.threads a = .ended (.result (.ok reply))) ∧
    (∃ t, l.store.serially? around ((commits trace).map jobs) = some t ∧
      ∀ id, (t.wallet? id).map Wallet.balance =
        (s.ledger.store.wallet? id).map Wallet.balance) ∧
    ∀ a request, jobs a = .transfer request →
      s.threads a = .ended (.result (.error .insufficientBalance)) →
      ∃ r legs before e after t, request = some r ∧ r.check = .ok legs ∧
        trace = before ++ e :: after ∧
        l.store.serially? around ((commits before).map jobs) = some t ∧
        legs.Short t.wallet? a e ∧
        (NoneBelowZero l.store.wallet? →
          ∃ w, t.wallet? legs.sender.wallet = some w ∧ w.balance.units < legs.amount.units) := by
  refine ⟨⟨hRun.nodup_commits hResting hCommands, hRun.mem_commits_iff hResting hCommands⟩, ?_, ?_⟩
  · obtain ⟨t, hSerial, -, hAlike⟩ := hRun.exists_serially hResting hCommands around
    exact ⟨t, hSerial, hAlike.balance_eq⟩
  · -- the run up to the step at which it saw why is a run of its own
    intro a request hJob hEnded
    obtain ⟨r, legs, hSome, hCheck, before, e, after, s₁, hTrace, hBefore, hShort⟩ :=
      hRun.exists_short hResting hJob hEnded
    obtain ⟨t, hSerial, -, hAlike⟩ := hBefore.exists_serially hResting hCommands around
    refine ⟨r, legs, before, e, after, t, hSome, hCheck, hTrace, hSerial, hShort.alike hAlike, ?_⟩
    intro hNone
    have hNone₁ := hBefore.noneBelowZero hResting hCommands hNone
    obtain ⟨w, hWallet, hBelow⟩ := hShort.sender (Transfer.check_ok hCheck) hNone₁
    obtain ⟨v, hOther, hSame⟩ := hAlike.exists_of_some hWallet
    exact ⟨v, hOther, by rw [hSame.balance_eq]; exact hBelow⟩

/-- Two transfers in opposite directions and a top-up. The top-up and the second transfer wait for
the first transfer, and the second transfer then asks for more than there is: one at a time the first
transfer and the top-up leave the balances that the three have left, and by what those leave that
commit before it the second transfer's sender is short. -/
theorem waiting_commands_in_order :
    let jobs := jobsOf [between 1 2 (coins 5), between 2 1 (coins 50), into 1 (coins 3) "key"]
    let ledger := duoLedger (coins 10) (coins 10)
    let run := play stillness [0, 0, 2, 2, 1, 1, 0, 0, 0, 0, 2, 1, 1, 1] (start jobs ledger)
    commits run.1 = [0, 2] ∧ (run.2.threads 1).failure? = some .insufficientBalance ∧
    (∃ t, ledger.store.serially? stillness [between 1 2 (coins 5), into 1 (coins 3) "key"] = some t ∧
      ∀ id, (t.wallet? id).map Wallet.balance =
        (run.2.ledger.store.wallet? id).map Wallet.balance) ∧
    ∃ before t w, ledger.store.serially? stillness ((commits before).map jobs) = some t ∧
      t.wallet? (.ofNat 2) = some w ∧ w.balance.units < (coins 50).units := by
  intro jobs ledger run
  have hFacts : commits run.1 = [0, 2] ∧
      (run.2.threads 1).failure? = some .insufficientBalance := by
    decide +kernel
  have hCommands : ∀ a, (jobs a).isCommand = true
    | 0 | 1 | 2 | _ + 3 => rfl
  have hNone : NoneBelowZero ledger.store.wallet? := .ofWallets (by decide)
  have hRun : Run stillness _ run.1 run.2 := run_play stillness _ _
  obtain ⟨-, hSerial, hShort⟩ :=
    Run.serializable (resting_duoLedger (coins 10) (coins 10)) hCommands hRun stillness
  rw [hFacts.1] at hSerial
  obtain ⟨r, legs, before, e, after, t, hSome, hCheck, -, hBefore, -, hSender⟩ :=
    hShort 1 _ rfl (Thread.eq_of_failure? hFacts.2)
  obtain rfl := Option.some.inj hSome
  -- the second transfer's parties, read off its texts
  obtain rfl : (⟨⟨.ofNat 2, .ofNat 2⟩, ⟨.ofNat 1, .ofNat 1⟩, coins 50⟩ : Legs) = legs := by
    have hLegs := congrArg Except.toOption hCheck
    exact Option.some.inj (Eq.trans (by decide +kernel) hLegs)
  obtain ⟨w, hWallet, hBelow⟩ := hSender hNone
  exact ⟨hFacts.1, hFacts.2, hSerial, before, t, w, hBefore, hWallet, hBelow⟩

/-- A transfer that its sender's balance covers, to a receiver far below zero: it is answered that a
balance is insufficient, but what the commands committed until any step leave one at a time covers the
amount. -/
theorem refused_for_the_receiver :
    let debt : Decimal := { negative := true, mantissa := 100, scale := 0 }
    let jobs := jobsOf [between 1 2 (coins 5)]
    let store := (duoLedger (coins 10) debt).store
    let run := play stillness [0, 0, 0, 0, 0, 0] (start jobs (duoLedger (coins 10) debt))
    run.2.threads 0 = .ended (.result (.error .insufficientBalance)) ∧
    ∀ before after t, run.1 = before ++ after →
      store.serially? stillness ((commits before).map jobs) = some t →
      ∀ w, t.wallet? (.ofNat 1) = some w → ¬ w.balance.units < (coins 5).units := by
  intro debt jobs store run
  have hFacts : (run.2.threads 0).failure? = some .insufficientBalance ∧ commits run.1 = [] ∧
      (store.wallet? (.ofNat 1)).map Wallet.balance = some (coins 10) := by
    decide +kernel
  obtain ⟨hFailure, hNobody, hBalance⟩ := hFacts
  refine ⟨Thread.eq_of_failure? hFailure, ?_⟩
  intro before after t hTrace hSerial w hWallet
  -- nobody commits, so the serial run is empty up to any step
  have hBefore : commits before = [] := by
    rw [hTrace, commits, List.filterMap_append] at hNobody
    exact (List.append_eq_nil_iff.mp hNobody).1
  rw [hBefore] at hSerial
  obtain rfl : store = t := Option.some.inj hSerial
  rw [hWallet] at hBalance
  rw [show w.balance = coins 10 from Option.some.inj hBalance]
  decide

end Crowd

end Purse
