import Purse.Proofs.Crowd.Basic

/-!
# Runs that are computed

A run by the order in which agents take their turns (`play`). The schedule lets one command run
until it is over or waits: what it computes is a run as well, in which that command takes all the
turns (`run_drive`, `run_driveOn`).

At the end stands a small crowd to try statements on: two users with a wallet each, and commands on
the two (`duo`).
-/

namespace Purse

namespace Thread

/-- The error that an agent has ended with. -/
def failure? : Thread → Option LedgerError
  | .ended (.result (.error e)) => some e
  | _ => none

/-- What an agent has answered in the end. -/
def reply? : Thread → Option Reply
  | .ended (.result (.ok reply)) => some reply
  | _ => none

theorem eq_of_failure? {t : Thread} {e : LedgerError} (hFailure : t.failure? = some e) :
    t = .ended (.result (.error e)) := by
  unfold failure? at hFailure
  split at hFailure
  · rw [Option.some.inj hFailure]
  · simp at hFailure

theorem eq_of_reply? {t : Thread} {reply : Reply} (hReply : t.reply? = some reply) :
    t = .ended (.result (.ok reply)) := by
  unfold reply? at hReply
  split at hReply
  · rw [Option.some.inj hReply]
  · simp at hReply

end Thread

namespace Crowd

variable {env : Surroundings} {s s' s'' : Crowd} {a : Agent} {e : Event} {trace trace' : List Event}

theorem Run.single (hStep : Step env s e s') : Run env s [e] s' :=
  Run.snoc .nil hStep

theorem Run.trans (hRun : Run env s trace s') (hRun' : Run env s' trace' s'') :
    Run env s (trace ++ trace') s'' := by
  induction hRun' with
  | nil => simpa using hRun
  | snoc hRun' hStep ih =>
    rw [← List.append_assoc]
    exact ih.snoc hStep

/-- What comes of agents taking their turns in an order. One that cannot go on is passed over. -/
def play (env : Surroundings) : List Agent → Crowd → List Event × Crowd
  | [], s => ([], s)
  | a :: order, s =>
    match s.turn? env a with
    | none => play env order s
    | some (e, s') => (e :: (play env order s').1, (play env order s').2)

theorem run_play (env : Surroundings) (order : List Agent) (s : Crowd) :
    Run env s (play env order s).1 (play env order s).2 := by
  induction order generalizing s with
  | nil => exact .nil
  | cons a order ih =>
    unfold play
    cases hTurn : s.turn? env a with
    | none => exact ih s
    | some next =>
      obtain ⟨e, s'⟩ := next
      exact (Run.single (.turn hTurn)).trans (ih s')

/-! ## Commands that are let run -/

/-- The crowd after an agent was let run. -/
def reached (s : Crowd) (a : Agent) : Progress Reply → Crowd
  | .ended r l _ => s.goOn a l (.ended (.result r))
  | .waiting c next row l _ => s.goOn a l (.waiting c next row)
  | .faulted f l _ => s.goOn a (l.abandon a none).1 (.ended (.fault f))

theorem goOn_goOn (l l' : Ledger) (t t' : Thread) :
    (s.goOn a l t).goOn a l' t' = s.goOn a l' t' := by
  unfold goOn
  rw [Function.update_idem]

theorem reached_goOn (l : Ledger) (t : Thread) (progress : Progress Reply) :
    (s.goOn a l t).reached a progress = s.reached a progress := by
  cases progress <;> exact goOn_goOn ..

/-- What an agent's call comes to is where letting it run from there gets. -/
theorem reached_after {c : Call} {next : Result c.Answer → Program Reply} {outcome : Outcome c}
    {progress : Progress Reply} (hFirst : Step env s e (s.after a next outcome).2)
    (hReplied : ∀ answer l woken, outcome = .replied answer l woken →
      ∃ trace, Run env (s.goOn a l (.ofProgram (next answer))) trace (s.reached a progress))
    (hWaiting : ∀ row l, outcome = .waiting row l → ∃ woken, progress = .waiting c next row l woken)
    (hFaulted : ∀ f l, outcome = .faulted f l → ∃ woken, progress = .faulted f l woken) :
    ∃ trace, Run env s trace (s.reached a progress) := by
  cases outcome with
  | replied answer l woken =>
    obtain ⟨trace, hRun⟩ := hReplied answer l woken rfl
    exact ⟨_, (Run.single hFirst).trans hRun⟩
  | waiting row l =>
    obtain ⟨woken, rfl⟩ := hWaiting row l rfl
    exact ⟨_, Run.single hFirst⟩
  | faulted f l =>
    obtain ⟨woken, rfl⟩ := hFaulted f l rfl
    exact ⟨_, Run.single hFirst⟩

/-- To let a program run until it is over or waits is to take all turns with it. -/
theorem run_drive (env : Surroundings) (a : Agent) (program : Program Reply) (s : Crowd)
    (woken : List Agent) (hThread : s.threads a = .ofProgram program) :
    ∃ trace, Run env s trace (s.reached a (s.ledger.drive env a program woken)) := by
  induction program generalizing s woken with
  | done result =>
    -- there is no turn left to take
    have hSame : s.reached a (s.ledger.drive env a (.done result) woken) = s := by
      show (⟨s.ledger, Function.update s.threads a _⟩ : Crowd) = s
      rw [← show s.threads a = .ended (.result result) from hThread, Function.update_eq_self]
    rw [hSame]
    exact ⟨[], .nil⟩
  | call c next ih =>
    refine reached_after (.turn (turn?_of_calling hThread)) ?_ ?_ ?_
    · -- an answer: on with the rest of the program
      intro answer l others hOutcome
      obtain ⟨trace, hRun⟩ := ih answer (s.goOn a l (.ofProgram (next answer))) (woken ++ others)
        (Function.update_self ..)
      rw [reached_goOn] at hRun
      simp only [Ledger.drive, hOutcome]
      exact ⟨trace, hRun⟩
    · intro row l hOutcome
      exact ⟨woken, by simp only [Ledger.drive, hOutcome]⟩
    · intro f l hOutcome
      exact ⟨woken, by simp only [Ledger.drive, hOutcome]⟩

/-- To let a program run on that has been given its row is to take all turns with it. -/
theorem run_driveOn (env : Surroundings) (a : Agent) {c : Call}
    {next : Result c.Answer → Program Reply} {row : WalletId} (s : Crowd)
    (hThread : s.threads a = .waiting c next row) (hHolds : s.ledger.store.holds a row = true) :
    ∃ trace, Run env s trace (s.reached a (s.ledger.driveOn env a c next)) := by
  refine reached_after (.turn (turn?_of_waiting hThread hHolds)) ?_ ?_ ?_
  · intro answer l others hOutcome
    obtain ⟨trace, hRun⟩ := run_drive env a (next answer) (s.goOn a l (.ofProgram (next answer)))
      others (Function.update_self ..)
    rw [reached_goOn] at hRun
    simp only [Ledger.driveOn, hOutcome]
    exact ⟨trace, hRun⟩
  · intro row l hOutcome
    exact ⟨[], by simp only [Ledger.driveOn, hOutcome]⟩
  · intro f l hOutcome
    exact ⟨[], by simp only [Ledger.driveOn, hOutcome]⟩

/-! ## Two wallets -/

/-- A wall clock that stands still, and no random bits. -/
def stillness : Surroundings := ⟨fun _ => .epoch, fun _ => 0⟩

/-- A whole amount. -/
def coins (n : Nat) : Decimal :=
  ⟨false, n % Decimal.capacity, 0, Nat.mod_lt n (by decide), Nat.zero_le _⟩

/-- The wallet of a user, both of one number. -/
def walletOf (n : Nat) (balance : Decimal) : Wallet :=
  .opened (.ofNat n) (.ofNat n) balance .epoch

/-- A transfer between the wallets of two users. -/
def between (sender receiver : Nat) (amount : Decimal) : Job :=
  .transfer (some ⟨(UserId.ofNat sender).text, (WalletId.ofNat sender).text,
    (UserId.ofNat receiver).text, (WalletId.ofNat receiver).text, amount⟩)

/-- A top-up of the wallet of a user. -/
def into (user : Nat) (amount : Decimal) (key : String) : Job :=
  .topup (some ⟨(WalletId.ofNat user).text, (UserId.ofNat user).text, amount, key⟩)

/-- A ledger with the wallets of users 1 and 2. -/
def duoLedger (first second : Decimal) : Ledger :=
  { Ledger.empty 0 with store := .ofWallets [walletOf 1 first, walletOf 2 second] }

/-- Some jobs for the first agents, and nothing to do for the others. -/
def jobsOf (jobs : List Job) (a : Agent) : Job := jobs.getD a (.topup none)

/-- A crowd of some jobs over the wallets of users 1 and 2. -/
def duo (first second : Decimal) (jobs : List Job) : Crowd :=
  start (jobsOf jobs) (duoLedger first second)

theorem resting_duoLedger (first second : Decimal) : (duoLedger first second).store.Resting :=
  Store.resting_ofWallets _

end Crowd

end Purse
