import Purse.Proofs.Crowd.Alone
import Purse.Proofs.Crowd.Owners
import Purse.Proofs.Crowd.Serial
import Purse.Proofs.Session.Turns

/-!
# Commands one at a time

A ledger in which nobody is at work and nothing is arranged to fail (`Ledger.Idle`). A program that is
run over it by itself never waits, and leaves such a ledger again. So a command is over when it has been
run: it has failed, and the wallets are as they were, or it has done all that it is for
(`Command.Leaves`). All that can keep it from either is the claim of a key that would end where no
instant lies.

## Definitions

* `Lone`: an agent is the only one at work in a ledger.
* `Ledger.Idle`: nobody is at work in a ledger.
* `Command.Leaves`: the wallets before and after a command, by its result.

## Results

* `Lone.perform`, `Lone.drive`: a call, and a program, of an agent that is the only one at work.
* `Schedule.idle_execute`: a command that is run to its end.
-/

namespace Purse

open Store

variable {env : Surroundings} {l l' : Ledger} {a : Agent} {expiry : Instant} {isOpen : Bool}
  {r : Result Reply} {woken : List Agent}

/-- An agent is the only one at work in a ledger, with nothing arranged to fail. A key that is claimed now
is claimed until the given instant. -/
structure Lone (a : Agent) (expiry : Instant) (isOpen : Bool) (l : Ledger) : Prop where
  solo : Solo a l.store
  unhindered : l.Unhindered
  closed : isOpen = false → l.store.copies a = []
  expiry_eq : l.now + l.keys.lifetime = expiry

/-- Nobody is at work in a ledger, and nothing is arranged to fail. A key that is claimed now is claimed
until the given instant. -/
structure Ledger.Idle (expiry : Instant) (l : Ledger) : Prop where
  resting : l.store.Resting
  unhindered : l.Unhindered
  expiry_eq : l.now + l.keys.lifetime = expiry

theorem Ledger.Idle.lone (hIdle : l.Idle expiry) (a : Agent) : Lone a expiry false l :=
  ⟨.of_resting hIdle.resting a, hIdle.unhindered, fun _ => hIdle.resting.idle a, hIdle.expiry_eq⟩

theorem Lone.idle (hLone : Lone a expiry false l) : l.Idle expiry :=
  ⟨hLone.solo.resting (hLone.closed rfl), hLone.unhindered, hLone.expiry_eq⟩

-- ---------------------------------------------------------------------------
-- Programs by themselves
-- ---------------------------------------------------------------------------

namespace Ledger

theorem Unhindered.of_eq (hFree : l.Unhindered) (hFailing : l'.failing = l.failing)
    (hArmed : l'.store.armed = l.store.armed) : l'.Unhindered := by
  refine ⟨?_, hArmed.trans hFree.armed⟩
  rw [hFailing]
  exact hFree.failing

/-- A new id is minted, or not, with the store as it was. -/
theorem exists_perform_newId (hFree : l.Unhindered) (env : Surroundings) (a : Agent) :
    ∃ answer l', l.perform env a .newId = .replied answer l' [] ∧ l'.failing = l.failing ∧
      l'.store = l.store := by
  obtain ⟨journal, hPerform⟩ := hFree.exists_perform env a .newId
  simp only [execute] at hPerform
  split at hPerform
  · exact ⟨_, _, hPerform, rfl, rfl⟩
  · exact ⟨_, _, hPerform, rfl, rfl⟩

theorem exists_perform_readClock (hFree : l.Unhindered) (env : Surroundings) (a : Agent) :
    ∃ now l', l.perform env a .readClock = .replied (.ok now) l' [] ∧ l'.failing = l.failing ∧
      l'.store = l.store := by
  obtain ⟨journal, hPerform⟩ := hFree.exists_perform env a .readClock
  exact ⟨_, _, hPerform, rfl, rfl⟩

/-- A wallet is stored, or refused, with the store as it was. -/
theorem exists_perform_insert (hFree : l.Unhindered) (w : Wallet) (env : Surroundings) (a : Agent) :
    ∃ answer l', l.perform env a (.insert w) = .replied answer l' [] ∧ l'.failing = l.failing ∧
      (answer = .ok () ∧ l.store.insert w = .ok l'.store ∨
        (∃ e, answer = .error e) ∧ l'.store = l.store) := by
  obtain ⟨journal, hPerform⟩ := hFree.exists_perform env a (.insert w)
  cases hInsert : l.store.insert w with
  | ok store =>
    simp only [execute, hInsert] at hPerform
    exact ⟨_, _, hPerform, rfl, Or.inl ⟨rfl, rfl⟩⟩
  | error e =>
    simp only [execute, hInsert] at hPerform
    exact ⟨_, _, hPerform, rfl, Or.inr ⟨⟨e, rfl⟩, rfl⟩⟩

end Ledger

namespace Lone

open Ledger

/-- What a call that a lone agent may make comes to: it is answered, or runs into the limit of
instants. -/
def Served (env : Surroundings) (a : Agent) (expiry : Instant) (isOpen : Bool) (l : Ledger)
    (c : Call) : Prop :=
  (∃ answer l' woken, l.perform env a c = .replied answer l' woken ∧
    Lone a expiry (c.leavesOpen isOpen answer) l') ∨
  ∃ fault l', l.perform env a c = .faulted fault l' ∧ Instant.limit ≤ expiry

/-- An agent that is answered is the only one at work still. -/
theorem replied {c : Call} {answer : Result c.Answer} (hLone : Lone a expiry isOpen l)
    (hFits : c.fits isOpen = true) (hPerform : l.perform env a c = .replied answer l' woken)
    (hFree : l'.Unhindered) : Lone a expiry (c.leavesOpen isOpen answer) l' := by
  obtain ⟨hSolo, hTold, -⟩ := hLone.solo.replied hFits hLone.closed hPerform
  have hKeyed : (l.perform env a c).Keyed l a := perform_keyed
  rw [hPerform] at hKeyed
  obtain ⟨hNow, hKeys⟩ := hKeyed
  refine ⟨hSolo, hFree, hTold.closed hFits hLone.closed, ?_⟩
  rw [hNow, hKeys.lifetime_eq]
  exact hLone.expiry_eq

/-- A call is served that is answered, with nothing arranged to fail. -/
theorem served {c : Call} {answer : Result c.Answer} (hLone : Lone a expiry isOpen l)
    (hFits : c.fits isOpen = true) (hPerform : l.perform env a c = .replied answer l' woken)
    (hFailing : l'.failing = l.failing) (hArmed : l'.store.armed = l.store.armed) :
    Served env a expiry isOpen l c := by
  have hFree := hLone.unhindered.of_eq hFailing hArmed
  exact Or.inl ⟨answer, l', woken, hPerform, hLone.replied hFits hPerform hFree⟩

theorem served_of_keeps {c : Call} {answer : Result c.Answer} (hLone : Lone a expiry isOpen l)
    (hFits : c.fits isOpen = true) (hPerform : l.perform env a c = .replied answer l' woken)
    (hKeeps : l.Keeps l') : Served env a expiry isOpen l c :=
  hLone.served hFits hPerform hKeeps.failing hKeeps.store.armed

theorem served_claim (hLone : Lone a expiry isOpen l) (key : String) (env : Surroundings) :
    Served env a expiry isOpen l (.claim key) := by
  obtain ⟨journal, hPerform⟩ := exists_perform_claim hLone.unhindered.failing key env a
  cases hClaim : l.keys.claim l.now key with
  | ok answered =>
    rw [hClaim] at hPerform
    exact hLone.served rfl hPerform rfl rfl
  | error fault =>
    rw [hClaim] at hPerform
    obtain ⟨-, -, hBeyond⟩ := Keys.claim_eq_error_iff.mp hClaim
    rw [hLone.expiry_eq] at hBeyond
    exact Or.inr ⟨fault, _, hPerform, hBeyond⟩

/-- An agent that is the only one at work does not have to wait for any call that it may make. -/
theorem perform {c : Call} (hLone : Lone a expiry isOpen l) (hFits : c.fits isOpen = true)
    (env : Surroundings) : Served env a expiry isOpen l c := by
  have hFree := hLone.unhindered
  have hAnswered := hFree.exists_perform env a c
  cases c with
  | begin =>
    obtain ⟨l', hPerform, hKeeps⟩ := exists_perform_begin hFree env a
    exact hLone.served_of_keeps hFits hPerform hKeeps
  | commit =>
    obtain ⟨l', woken, hPerform, hKeeps⟩ := exists_perform_commit hFree env a
    exact hLone.served_of_keeps hFits hPerform hKeeps
  | rollback =>
    obtain ⟨l', woken, hPerform, hKeeps⟩ := exists_perform_rollback hFree env a
    exact hLone.served_of_keeps hFits hPerform hKeeps
  | lock id user =>
    obtain ⟨l', hPerform, hKeeps⟩ := exists_perform_lock hFree hLone.solo id user env
    exact hLone.served_of_keeps hFits hPerform hKeeps
  | addWithin id amount =>
    obtain ⟨l', hPerform, hKeeps⟩ := exists_perform_addWithin hFree hLone.solo id amount env
    exact hLone.served_of_keeps hFits hPerform hKeeps
  | add id amount =>
    have hNew : id ∉ l.store.locked a := by
      rw [Store.locked, hLone.closed (by simpa [Call.fits] using hFits)]
      exact List.not_mem_nil
    obtain ⟨l', woken, hPerform, hKeeps⟩ := exists_perform_add hFree hLone.solo hNew amount env
    exact hLone.served_of_keeps hFits hPerform hKeeps
  | insert w =>
    obtain ⟨answer, l', hPerform, hFailing, hStored⟩ := exists_perform_insert hFree w env a
    refine hLone.served hFits hPerform hFailing ?_
    rcases hStored with ⟨-, hInsert⟩ | ⟨-, hSame⟩
    · exact armed_insert hInsert
    · rw [hSame]
  | newId =>
    obtain ⟨answer, l', hPerform, hFailing, hSame⟩ := exists_perform_newId hFree env a
    exact hLone.served hFits hPerform hFailing (congrArg Store.armed hSame)
  | claim key => exact hLone.served_claim key env
  | get | list | release | readClock =>
    obtain ⟨journal, hPerform⟩ := hAnswered
    exact hLone.served hFits hPerform rfl rfl

/-- A program that an agent runs by itself comes to its end, unless it runs into the limit of
instants. -/
theorem drive {p : Program Reply} (hLone : Lone a expiry isOpen l) (hOrderly : p.Orderly isOpen)
    (env : Surroundings) (woken : List Agent) :
    (∃ r l' others, l.drive env a p woken = .ended r l' others ∧ Lone a expiry false l') ∨
      ∃ fault l' others, l.drive env a p woken = .faulted fault l' others ∧
        Instant.limit ≤ expiry := by
  induction p generalizing isOpen l woken with
  | done result =>
    obtain rfl : isOpen = false := hOrderly
    exact Or.inl ⟨result, l, woken, rfl, hLone⟩
  | call c next ih =>
    obtain ⟨hFits, hNext⟩ := hOrderly
    obtain ⟨answer, l', others, hPerform, hLone'⟩ | ⟨fault, l', hPerform, hBeyond⟩ :=
      hLone.perform hFits env
    · rw [drive_replied hPerform]
      exact ih answer hLone' (hNext answer) _
    · exact Or.inr ⟨fault, l', woken, drive_faulted hPerform next woken, hBeyond⟩

end Lone

-- ---------------------------------------------------------------------------
-- What commands do by themselves
-- ---------------------------------------------------------------------------

namespace Crowd

variable {s : Crowd} {trace : List Event} {jobs : Agent → Job}

/-- In a crowd in which one agent only has something to do, a command, the wallets are as they were
until it is done with success. -/
theorem Run.unchanged_or_does (hResting : l.store.Resting) (hCommand : (jobs a).isCommand = true)
    (hOthers : ∀ b, b ≠ a → ((start jobs l).threads b).isEnded = true)
    (hRun : Run env (start jobs l) trace s) :
    (∀ reply, s.threads a ≠ .ended (.result (.ok reply))) ∧
        s.ledger.store.wallet? = l.store.wallet? ∨
      s.threads a = .ended (.result (.ok .unit)) ∧
        (jobs a).Does l.store.wallet? s.ledger.store.wallet? := by
  have hStart := sound_start hResting jobs
  -- on the steps: all of them that count are the agent's, and it succeeds by the last one
  induction hRun with
  | nil => exact Or.inl ⟨threads_start_ne hCommand, rfl⟩
  | @snoc trace s s' e hRun hStep ih =>
    have hSound := hRun.sound hStart
    by_cases hAgent : e.agent? = some a
    · rcases ih with ⟨-, hSame⟩ | ⟨hEnded, -⟩
      · rcases hStep.command hSound (hRun.along hResting) hCommand hAgent with hQuiet | hSucceeds
        · exact Or.inl ⟨hQuiet.unfinished,
            (funext (hStep.wallet?_eq hSound hQuiet.quiet)).trans hSame⟩
        · have hDoes := hSucceeds.does
          rw [hSame] at hDoes
          exact Or.inr ⟨hSucceeds.ended, hDoes⟩
      · exact absurd hAgent (hStep.agent?_ne_of_isEnded (by rw [hEnded]; rfl))
    · have hQuiet : e.isLoud = false := by
        cases e with
        | answered b c answer =>
          have hb : b ≠ a := fun hSame => hAgent (congrArg some hSame)
          have hIdle : (s.threads b).isEnded = true := by
            cases hThread : (start jobs l).threads b with
            | ended ending =>
              rw [hRun.ended hStart hThread]
              rfl
            | calling | waiting =>
              have hEnded := hOthers b hb
              rw [hThread] at hEnded
              cases hEnded
          exact absurd rfl (hStep.agent?_ne_of_isEnded hIdle)
        | queued | faulted | dropped | aside => rfl
      rw [(hStep.frame hSound hAgent).1, funext (hStep.wallet?_eq hSound hQuiet)]
      exact ih

end Crowd

/-- A command that moves money and has been run by itself has failed, with the wallets as they were, or
has done what it is for. -/
theorem Job.unchanged_or_does {job : Job} (hResting : l.store.Resting)
    (hCommand : job.isCommand = true)
    (hDrive : l.drive env a job.program [] = .ended r l' woken) :
    (∃ e, r = .error e) ∧ l'.store.wallet? = l.store.wallet? ∨
      r = .ok .unit ∧ job.Does l.store.wallet? l'.store.wallet? := by
  -- everybody else has nothing to do
  let jobs := Function.update (fun _ => Job.other (.done (.ok .unit)) rfl) a job
  have hJob : jobs a = job := Function.update_self ..
  have hThread : (Crowd.start jobs l).threads a = .ofProgram job.program := by
    show Thread.ofProgram (jobs a).program = _
    rw [hJob]
  have hOthers : ∀ b, b ≠ a → ((Crowd.start jobs l).threads b).isEnded = true := by
    intro b hb
    show (Thread.ofProgram (jobs b).program).isEnded = true
    rw [show jobs b = _ from Function.update_of_ne hb ..]
    rfl
  obtain ⟨trace, hRun⟩ := Crowd.run_drive env a job.program (Crowd.start jobs l) [] hThread
  rw [show (Crowd.start jobs l).ledger.drive env a job.program [] = _ from hDrive] at hRun
  have hEnded : ((Crowd.start jobs l).reached a (.ended r l' woken)).threads a =
      .ended (.result r) := Crowd.threads_goOn ..
  rcases hRun.unchanged_or_does hResting (by rw [hJob]; exact hCommand) hOthers with
    ⟨hFailed, hSame⟩ | ⟨hDone, hDoes⟩
  · rw [hEnded] at hFailed
    refine Or.inl ⟨?_, hSame⟩
    cases r with
    | error e => exact ⟨e, rfl⟩
    | ok reply => exact absurd rfl (hFailed reply)
  · rw [hEnded] at hDone
    rw [hJob] at hDoes
    cases hDone
    exact Or.inr ⟨rfl, hDoes⟩

/-- A wallet that has been made by itself is stored, or there is none. -/
theorem creation_by_itself {request : NewWallet} (hFree : l.Unhindered)
    (hDrive : l.drive env a (creation (some request)) [] = .ended r l' woken) :
    (∃ e, r = .error e) ∧ l'.store.wallet? = l.store.wallet? ∨
      ∃ w, r = .ok (.wallet w) ∧ w.balance = request.balance ∧ l.store.wallet? w.id = none ∧
        l'.store.wallet? = Function.update l.store.wallet? w.id (some w) := by
  rw [creation_some] at hDrive
  cases hCheck : request.check with
  | error e =>
    rw [hCheck] at hDrive
    cases hDrive
    exact Or.inl ⟨⟨e, rfl⟩, rfl⟩
  | ok user =>
    rw [hCheck] at hDrive
    obtain ⟨id?, l₁, hId, hFailing₁, hStore₁⟩ := Ledger.exists_perform_newId hFree env a
    simp only [Ledger.drive_replied hId] at hDrive
    cases id? with
    | error e =>
      cases hDrive
      rw [hStore₁]
      exact Or.inl ⟨⟨e, rfl⟩, rfl⟩
    | ok id =>
      have hFree₁ := hFree.of_eq hFailing₁ (congrArg Store.armed hStore₁)
      obtain ⟨now, l₂, hNow, hFailing₂, hStore₂⟩ := Ledger.exists_perform_readClock hFree₁ env a
      simp only [Ledger.drive_replied hNow] at hDrive
      have hFree₂ := hFree₁.of_eq hFailing₂ (congrArg Store.armed hStore₂)
      obtain ⟨answer, l₃, hPerform, -, hStored⟩ := Ledger.exists_perform_insert hFree₂
        (Wallet.opened id user request.balance now) env a
      unfold NewWallet.storing at hDrive
      simp only [Ledger.drive_replied hPerform] at hDrive
      rcases hStored with ⟨rfl, hInsert⟩ | ⟨⟨e, rfl⟩, hSame⟩
      · cases hDrive
        obtain ⟨hNew, hWallets⟩ := wallet?_insert hInsert
        rw [hStore₂, hStore₁] at hNew hWallets
        exact Or.inr ⟨_, rfl, rfl, hNew, hWallets⟩
      · cases hDrive
        rw [hSame, hStore₂, hStore₁]
        exact Or.inl ⟨⟨e, rfl⟩, rfl⟩

/-- A command that only looks something up. -/
def Command.isReader : Command → Bool
  | wallet _ | userWallets _ => true
  | createWallet _ | topup _ | transfer _ => false

/-- A command that only looks something up leaves the wallets as they are. -/
theorem wallet?_of_reader {c : Command} (hFree : l.Unhindered) (hReader : c.isReader = true)
    (hDrive : l.drive env a c.program [] = .ended r l' woken) :
    l'.store.wallet? = l.store.wallet? := by
  refine c.program_induction
    (fun p => l.drive env a p [] = .ended r l' woken → l'.store.wallet? = l.store.wallet?)
    ?_ ?_ ?_ ?_ ?_ ?_ hDrive
  · rintro userId rfl
    cases hReader
  · rintro r rfl
    cases hReader
  · rintro r rfl
    cases hReader
  · intro e hDone
    cases hDone
    rfl
  · intro id hDone
    obtain ⟨journal, hPerform⟩ := hFree.exists_perform env a (.get id)
    rw [Ledger.drive_replied hPerform] at hDone
    cases hDone
    rfl
  · intro user hDone
    obtain ⟨journal, hPerform⟩ := hFree.exists_perform env a (.list user)
    rw [Ledger.drive_replied hPerform] at hDone
    cases hDone
    rfl

-- ---------------------------------------------------------------------------
-- Commands that are run to their ends
-- ---------------------------------------------------------------------------

/-- What the wallets before and after a command have to do with its result: if it fails, they are the
same. -/
def Command.Leaves (wallet? wallet?' : WalletId → Option Wallet) : Command → Result Reply → Prop
  | _, .error _ => wallet?' = wallet?
  | createWallet _, .ok reply => ∃ w, reply = .wallet w ∧ w.balance = .zero ∧
    wallet? w.id = none ∧ wallet?' = Function.update wallet? w.id (some w)
  | wallet _, .ok _ | userWallets _, .ok _ => wallet?' = wallet?
  | c, .ok reply => reply = .unit ∧ c.job.Does wallet? wallet?'

/-- What a command leaves that is run by itself. -/
theorem Command.leaves_of_drive {c : Command} (hIdle : l.Idle expiry)
    (hDrive : l.drive env a c.program [] = .ended r l' woken) :
    c.Leaves l.store.wallet? l'.store.wallet? r := by
  cases hCommand : c.job.isCommand with
  | true =>
    rw [← program_job] at hDrive
    rcases Job.unchanged_or_does hIdle.resting hCommand hDrive with ⟨⟨e, rfl⟩, hSame⟩ | ⟨rfl, hDoes⟩
    · cases c <;> exact hSame
    · cases c with
      | topup | transfer => exact ⟨rfl, hDoes⟩
      | createWallet | wallet | userWallets => cases hCommand
  | false =>
    cases c with
    | topup | transfer => cases hCommand
    | createWallet userId =>
      rw [Command.program] at hDrive
      rcases creation_by_itself hIdle.unhindered hDrive with ⟨⟨e, rfl⟩, hSame⟩ | ⟨w, rfl, hMade⟩
      · exact hSame
      · exact ⟨w, rfl, hMade⟩
    | wallet | userWallets =>
      have hSame : l'.store.wallet? = l.store.wallet? := wallet?_of_reader hIdle.unhindered rfl hDrive
      cases r <;> exact hSame

/-- A program that has been run to its end is over, with whatever comes of its deadline. -/
theorem Schedule.execute_of_drive {s : Schedule} {program : Program Reply} {deadline : Option Instant}
    (hDrive : s.ledger.drive env s.nextAgent program [] = .ended r l' woken) :
    s.execute env program deadline =
      ({ s with nextAgent := s.nextAgent + 1 }.wake l' woken, .result r, []) := by
  unfold execute start
  simp only [hDrive, turn]

/-- A command that is run to its end over an idle ledger leaves an idle one, unless it runs into the
limit of instants. -/
theorem Schedule.idle_execute {s : Schedule} (hIdle : s.ledger.Idle expiry) (c : Command)
    (env : Surroundings) (deadline : Option Instant) :
    (∃ r s', s.execute env c.program deadline = (s', .result r, []) ∧ s'.ledger.Idle expiry ∧
      c.Leaves s.ledger.store.wallet? s'.ledger.store.wallet? r) ∨
    ∃ fault s', s.execute env c.program deadline = (s', .fault fault, []) ∧
      Instant.limit ≤ expiry := by
  obtain ⟨r, l', woken, hDrive, hLone⟩ | ⟨fault, l', woken, hDrive, hBeyond⟩ :=
    (hIdle.lone s.nextAgent).drive c.orderly env []
  · exact Or.inl ⟨r, _, execute_of_drive hDrive, hLone.idle, Command.leaves_of_drive hIdle hDrive⟩
  · unfold execute start
    simp only [hDrive, turn]
    exact Or.inr ⟨fault, _, rfl, hBeyond⟩

end Purse
