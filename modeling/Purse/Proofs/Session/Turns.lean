import Purse.Session
import Purse.Proofs.Crowd.Watch
import Purse.Proofs.Crowd.Solvency

/-!
# Turns without a fault

The one call that can run into an arithmetic limit is a claim, whose end may be no instant any more. A
top-up claims its key by its first call, and no other command claims any. So a command that waits has
no claim before it, and whatever lets commands go on (`serve`, `settle`, `await`) runs into no limit: it
is enough to know this of the waiting commands (`Schedule.Calm`), and a turn keeps it.

## Definitions

* `Program.Keyless`, `Program.AsksFirst`: no claim, and none after the first call.
* `Ledger.Oversteps`: a claim of the key would end where no instant lies.
* `Schedule.Calm`: the commands that wait have no claim before them, and claims last for the lifetime.

## Results

* `Command.asksFirst`: a command claims no key but by its first call.
* `Ledger.drive_asksFirst`: such a program faults exactly if its claim oversteps.
* `Schedule.calm_settle`, `Schedule.calm_execute`: nothing else faults.
-/

namespace Purse

-- ---------------------------------------------------------------------------
-- Which programs claim a key
-- ---------------------------------------------------------------------------

/-- Whether a call asks for a key. -/
def Call.isClaim : Call → Bool
  | .claim _ => true
  | _ => false

namespace Program

variable {α β : Type}

/-- The program asks for no key. -/
abbrev Keyless (p : Program α) : Prop := p.Calls fun c => c.isClaim = false

theorem Calls.attempt {P : Call → Prop} {p : Program α} (hCalls : p.Calls P) :
    p.attempt.Calls P := by
  induction p with
  | done result => trivial
  | call c next ih => exact ⟨hCalls.1, fun answer => ih answer (hCalls.2 answer)⟩

/-- The program asks for no key, or by its first call only. -/
inductive AsksFirst : Program α → Prop
  | keyless {p : Program α} (hKeyless : p.Keyless) : AsksFirst p
  | asks {key : String} {next : Result (Call.claim key).Answer → Program α}
      (hKeyless : ∀ answer, (next answer).Keyless) : AsksFirst (.call (.claim key) next)

end Program

theorem calls_finish {α : Type} {P : Call → Prop} (hCommit : P .commit) (hRollback : P .rollback)
    (outcome : Result α) : (finish outcome).Calls P := by
  cases outcome with
  | ok value => exact Program.Calls.bind ⟨hCommit, fun _ => trivial⟩ fun _ => trivial
  | error e => exact Program.Calls.bind ⟨hRollback, fun _ => trivial⟩ fun _ => trivial

theorem keyless_finish {α : Type} (outcome : Result α) : (finish outcome).Keyless :=
  calls_finish (P := fun c => c.isClaim = false) rfl rfl outcome

theorem Stage.calls_settle {P : Call → Prop} (hAdd : ∀ id amount, P (.addWithin id amount))
    (legs : Legs) (wallets : Option Wallet × Option Wallet) : (Stage.settle legs wallets).Calls P := by
  rcases wallets with ⟨_ | sender, _ | receiver⟩
  · trivial
  · trivial
  · trivial
  · show Program.Calls P (if sender.balance.lt legs.amount then Program.fail .insufficientBalance
      else (Program.ask (.addWithin sender.id legs.amount.neg)).bind fun _ =>
        Program.ask (.addWithin receiver.id legs.amount))
    split
    · trivial
    · exact Program.Calls.bind ⟨hAdd _ _, fun _ => trivial⟩ fun _ => ⟨hAdd _ _, fun _ => trivial⟩

/-- All that moves money locks rows, and adds to the copies of their wallets. -/
theorem calls_moveBalance {P : Call → Prop} (hLock : ∀ id user, P (.lock id user))
    (hAdd : ∀ id amount, P (.addWithin id amount)) (legs : Legs) : (moveBalance legs).Calls P := by
  rw [Stage.moveBalance_eq]
  refine Program.Calls.bind ⟨hLock _ _, fun _ => trivial⟩ fun first => ?_
  refine Program.Calls.bind ⟨hLock _ _, fun _ => trivial⟩ fun second => ?_
  exact Stage.calls_settle hAdd legs (Stage.pair legs first second)

theorem keyless_transferring (request : Option Transfer) : (transferring request).Keyless := by
  cases request with
  | none => trivial
  | some r =>
    rw [transferring_some]
    cases r.check with
    | error e => trivial
    | ok legs =>
      refine Program.Calls.bind ⟨rfl, fun _ => trivial⟩ fun _ => ?_
      refine Program.Calls.bind (calls_moveBalance (fun _ _ => rfl) (fun _ _ => rfl) legs).attempt fun outcome => ?_
      exact Program.Calls.bind (keyless_finish outcome) fun _ => trivial

theorem keyless_creation (request : Option NewWallet) : (creation request).Keyless := by
  refine Program.Calls.bind ?_ fun _ => trivial
  cases request with
  | none => trivial
  | some request =>
    rw [create_some]
    generalize request.check = owner
    refine Program.Calls.bind trivial fun user => ?_
    refine Program.Calls.bind ⟨rfl, fun _ => trivial⟩ fun id => ?_
    refine Program.Calls.bind ⟨rfl, fun _ => trivial⟩ fun now => ?_
    exact Program.Calls.bind ⟨rfl, fun _ => trivial⟩ fun _ => trivial

/-- Once its key is claimed, a top-up claims no other. -/
theorem Topup.keyless_claimed (r : Topup) (inUse : Result Bool) : (r.claimed inUse).Keyless := by
  rcases inUse with e | _ | _
  · trivial
  · show r.applying.Keyless
    unfold applying
    split
    · exact ⟨rfl, fun _ => trivial⟩
    · exact ⟨rfl, fun _ => trivial⟩
  · trivial

theorem asksFirst_toppingUp (request : Option Topup) : (toppingUp request).AsksFirst := by
  cases request with
  | none => exact .keyless trivial
  | some r =>
    rw [toppingUp_some]
    split
    · exact .keyless trivial
    · exact .asks r.keyless_claimed

/-- No command but a top-up asks for a key. -/
theorem Command.keyless (c : Command) (hNot : ∀ r, c ≠ .topup r) : c.program.Keyless := by
  refine c.program_induction Program.Keyless (fun _ _ => keyless_creation)
    (fun r hTopup => absurd hTopup (hNot r)) (fun _ _ => keyless_transferring) ?_ ?_ ?_
  · exact fun e => trivial
  · exact fun id => ⟨rfl, fun _ => trivial⟩
  · exact fun user => ⟨rfl, fun _ => trivial⟩

/-- A command claims no key but by its first call. -/
theorem Command.asksFirst (c : Command) : c.program.AsksFirst := by
  by_cases hTopup : ∃ r, c = .topup r
  · obtain ⟨r, rfl⟩ := hTopup
    rw [Command.program]
    generalize some r = request
    exact asksFirst_toppingUp request
  · exact .keyless (c.keyless fun r hSame => hTopup ⟨r, hSame⟩)

-- ---------------------------------------------------------------------------
-- Calls
-- ---------------------------------------------------------------------------

theorem Keyed.lifetime_eq {now : Instant} {k k' : Keys} {e : Event} (hKeyed : Keyed now k k' e) :
    k'.lifetime = k.lifetime := by
  cases hKeyed with
  | taken hFree hTaken => rw [hTaken]
  | released hReleased => rw [hReleased]; rfl
  | same hNot hSame => rw [hSame]

/-- A claim fails only if the key is free and there is no instant for the claim's end. -/
theorem Keys.claim_eq_error_iff {k : Keys} {now : Instant} {key : String} {fault : Fault} :
    k.claim now key = .error fault ↔ fault = .instantOverflow ∧ k.isLive now key = false ∧
      Instant.limit ≤ now + k.lifetime := by
  unfold claim
  by_cases hLive : k.isLive now key = true
  · simp [hLive]
  · by_cases hWithin : now + k.lifetime < Instant.limit
    · simp [hLive, hWithin]
    · simp only [hLive, hWithin]
      constructor
      · intro hError
        cases hError
        exact ⟨rfl, trivial, Nat.not_lt.mp hWithin⟩
      · rintro ⟨rfl, -, -⟩
        rfl

/-- The ledger that a call leaves. -/
def Outcome.ledger {c : Call} : Outcome c → Ledger
  | .replied _ l _ | .waiting _ l | .faulted _ l => l

/-- The limit that a call ran into. -/
def Outcome.fault? {c : Call} : Outcome c → Option Fault
  | .replied _ _ _ | .waiting _ _ => none
  | .faulted f _ => some f

theorem Outcome.Keyed.lifetime_eq {l : Ledger} {a : Agent} {c : Call} {outcome : Outcome c}
    (hKeyed : outcome.Keyed l a) : outcome.ledger.keys.lifetime = l.keys.lifetime := by
  cases outcome with
  | replied answer l' woken => exact hKeyed.2.lifetime_eq
  | waiting row l' => exact congrArg Keys.lifetime hKeyed.2
  | faulted fault l' => exact congrArg Keys.lifetime hKeyed.2

namespace Ledger

variable {env : Surroundings} {l : Ledger} {a : Agent} {c : Call} {key : String}

theorem fault?_ofStep (step : Store.Step c.Answer) : (l.ofStep step).fault? = none := by
  cases step <;> rfl

/-- No call but a claim runs into a limit. -/
theorem fault?_execute (env : Surroundings) (l : Ledger) (a : Agent) (hNot : c.isClaim = false) :
    (l.execute env a c).fault? = none := by
  cases c with
  | claim key => cases hNot
  | lock | addWithin | add => exact fault?_ofStep _
  | insert w =>
    simp only [execute]
    cases l.store.insert w <;> rfl
  | newId =>
    simp only [execute]
    cases l.mint.next? (l.wallTime env).toMillis.toNat (env.random l.readings) <;> rfl
  | begin | commit | rollback | get | list | release | readClock => rfl

theorem fault?_refuse (reason : String) : (l.refuse a c reason).fault? = none := by
  cases c <;> rfl

theorem fault?_perform (env : Surroundings) (l : Ledger) (a : Agent) (hNot : c.isClaim = false) :
    (l.perform env a c).fault? = none := by
  unfold perform
  simp only
  split
  · exact fault?_execute env _ a hNot
  · split
    · exact fault?_refuse _
    · exact fault?_execute env _ a hNot

theorem fault?_resume (env : Surroundings) (l : Ledger) (a : Agent) (hNot : c.isClaim = false) :
    (l.resume env a c).fault? = none := by
  cases c with
  | lock | addWithin | add => exact fault?_ofStep _
  | _ => exact fault?_execute env l a hNot

theorem lifetime_perform (env : Surroundings) (l : Ledger) (a : Agent) (c : Call) :
    (l.perform env a c).ledger.keys.lifetime = l.keys.lifetime :=
  perform_keyed.lifetime_eq

theorem lifetime_resume (env : Surroundings) (l : Ledger) (a : Agent) (c : Call) :
    (l.resume env a c).ledger.keys.lifetime = l.keys.lifetime :=
  resume_keyed.lifetime_eq

/-- A claim of the key would have to last beyond the last instant: nothing keeps the claim from being
made, and its lifetime reaches where no instant lies. -/
structure Oversteps (l : Ledger) (key : String) : Prop where
  unhindered : l.failing.get? .claim = none
  free : l.keys.isLive l.now key = false
  beyond : Instant.limit ≤ l.now + l.keys.lifetime

/-- A claim is answered, unless it oversteps; then there is no instant for its end. -/
theorem perform_claim (env : Surroundings) (l : Ledger) (a : Agent) (key : String) :
    (¬ l.Oversteps key ∧ ∃ answer l', l.perform env a (.claim key) = .replied answer l' []) ∨
      (l.Oversteps key ∧ ∃ l', l.perform env a (.claim key) = .faulted .instantOverflow l') := by
  obtain ⟨hNow, hKeys⟩ := record_keyed (l := l) (a := a) (c := .claim key)
  have hRecorded : (l.record a (.claim key)).failing = l.failing := rfl
  unfold perform
  cases hFailing : l.failing.get? .claim with
  | some reason =>
    simp only [Call.method?, hRecorded, hFailing]
    refine Or.inl ⟨fun hOversteps => ?_, _, _, rfl⟩
    rw [hOversteps.unhindered] at hFailing
    cases hFailing
  | none =>
    simp only [Call.method?, hRecorded, hFailing]
    cases hClaim : l.keys.claim l.now key with
    | ok answered =>
      refine Or.inl ⟨fun hOversteps => ?_, .ok answered.1,
        { l.record a (.claim key) with keys := answered.2 }, ?_⟩
      · rw [Keys.claim_eq_error_iff.mpr ⟨rfl, hOversteps.free, hOversteps.beyond⟩] at hClaim
        cases hClaim
      · simp only [execute, hNow, hKeys, hClaim]
    | error fault =>
      obtain ⟨rfl, hFree, hBeyond⟩ := Keys.claim_eq_error_iff.mp hClaim
      refine Or.inr ⟨⟨hFailing, hFree, hBeyond⟩, l.record a (.claim key), ?_⟩
      simp only [execute, hNow, hKeys, hClaim]

end Ledger

-- ---------------------------------------------------------------------------
-- Programs
-- ---------------------------------------------------------------------------

namespace Progress

variable {α : Type}

/-- The ledger that a program has been let run to. -/
def ledger : Progress α → Ledger
  | .ended _ l _ | .waiting _ _ _ l _ | .faulted _ l _ => l

/-- The limit that a program ran into. -/
def fault? : Progress α → Option Fault
  | .ended _ _ _ | .waiting _ _ _ _ _ => none
  | .faulted f _ _ => some f

/-- If the program waits, it has no claim before it. -/
def Keyless : Progress α → Prop
  | .waiting c next _ _ _ => (Program.call c next).Keyless
  | .ended _ _ _ | .faulted _ _ _ => True

/-- Claims last for the lifetime, and if the program waits, it has no claim before it. -/
structure Calm (lifetime : Nat) (p : Progress α) : Prop where
  lifetime_eq : p.ledger.keys.lifetime = lifetime
  keyless : p.Keyless

end Progress

namespace Ledger

variable {α : Type} {env : Surroundings} {l : Ledger} {a : Agent}

/-- A program that asks for no key runs into no limit. -/
theorem drive_keyless {p : Program α} (hKeyless : p.Keyless) (env : Surroundings) (l : Ledger)
    (a : Agent) (woken : List Agent) :
    (l.drive env a p woken).Calm l.keys.lifetime ∧ (l.drive env a p woken).fault? = none := by
  induction p generalizing l woken with
  | done result => exact ⟨⟨rfl, trivial⟩, rfl⟩
  | call c next ih =>
    have hLifetime := lifetime_perform env l a c
    have hFault := fault?_perform env l a hKeyless.1
    cases hOutcome : l.perform env a c with
    | replied answer l' others =>
      rw [hOutcome] at hLifetime
      simp only [drive, hOutcome]
      rw [← show l'.keys.lifetime = l.keys.lifetime from hLifetime]
      exact ih answer (hKeyless.2 answer) l' _
    | waiting row l' =>
      rw [hOutcome] at hLifetime
      simp only [drive, hOutcome]
      exact ⟨⟨hLifetime, hKeyless⟩, rfl⟩
    | faulted f l' =>
      rw [hOutcome] at hFault
      cases hFault

theorem driveOn_keyless {c : Call} {next : Result c.Answer → Program α}
    (hKeyless : (Program.call c next).Keyless) (env : Surroundings) (l : Ledger) (a : Agent) :
    (l.driveOn env a c next).Calm l.keys.lifetime ∧ (l.driveOn env a c next).fault? = none := by
  have hLifetime := lifetime_resume env l a c
  have hFault := fault?_resume env l a hKeyless.1
  cases hOutcome : l.resume env a c with
  | replied answer l' woken =>
    rw [hOutcome] at hLifetime
    simp only [driveOn, hOutcome]
    rw [← show l'.keys.lifetime = l.keys.lifetime from hLifetime]
    exact drive_keyless (hKeyless.2 answer) env l' a woken
  | waiting row l' =>
    rw [hOutcome] at hLifetime
    simp only [driveOn, hOutcome]
    exact ⟨⟨hLifetime, hKeyless⟩, rfl⟩
  | faulted f l' =>
    rw [hOutcome] at hFault
    cases hFault

/-- The key that a program asks for by its first call is claimed beyond the last instant. -/
def OverstepsFirst (l : Ledger) : Program α → Prop
  | .call (.claim key) _ => l.Oversteps key
  | _ => False

theorem not_overstepsFirst {p : Program α} (hKeyless : p.Keyless) (l : Ledger) :
    ¬ l.OverstepsFirst p := by
  unfold OverstepsFirst
  split
  · cases show true = false from hKeyless.1
  · exact id

/-- A program that asks for a key by its first call at most runs into a limit exactly if that call
oversteps. -/
theorem drive_asksFirst {p : Program α} (hAsks : p.AsksFirst) (env : Surroundings) (l : Ledger)
    (a : Agent) (woken : List Agent) :
    (l.drive env a p woken).Calm l.keys.lifetime ∧
      (¬ l.OverstepsFirst p ∧ (l.drive env a p woken).fault? = none ∨
        l.OverstepsFirst p ∧ (l.drive env a p woken).fault? = some .instantOverflow) := by
  cases hAsks with
  | keyless hKeyless =>
    obtain ⟨hCalm, hFault⟩ := drive_keyless hKeyless env l a woken
    exact ⟨hCalm, Or.inl ⟨not_overstepsFirst hKeyless l, hFault⟩⟩
  | @asks key next hKeyless =>
    have hLifetime := lifetime_perform env l a (.claim key)
    obtain ⟨hNot, answer, l', hOutcome⟩ | ⟨hOversteps, l', hOutcome⟩ := perform_claim env l a key
    · rw [hOutcome] at hLifetime
      simp only [drive, hOutcome]
      obtain ⟨hCalm, hFault⟩ := drive_keyless (hKeyless answer) env l' a (woken ++ [])
      rw [show l'.keys.lifetime = l.keys.lifetime from hLifetime] at hCalm
      exact ⟨hCalm, Or.inl ⟨hNot, hFault⟩⟩
    · rw [hOutcome] at hLifetime
      simp only [drive, hOutcome]
      exact ⟨⟨hLifetime, trivial⟩, Or.inr ⟨hOversteps, rfl⟩⟩

end Ledger

-- ---------------------------------------------------------------------------
-- Schedules
-- ---------------------------------------------------------------------------

/-- A command that waits has no claim before it. -/
def Waiter.Keyless (w : Waiter) : Prop := (Program.call w.call w.next).Keyless

/-- The limit that a command ended at. -/
def Ending.fault? : Ending → Option Fault
  | .result _ => none
  | .fault f => some f

namespace Schedule

variable {s : Schedule} {lifetime : Nat} {w : Waiter}

/-- Claims last for the lifetime, and no command that waits has a claim before it. -/
structure Calm (lifetime : Nat) (s : Schedule) : Prop where
  lifetime_eq : s.ledger.keys.lifetime = lifetime
  keyless : ∀ w ∈ s.waiters, w.Keyless

theorem Calm.of_ledger (hCalm : s.Calm lifetime) {s' : Schedule}
    (hLifetime : s'.ledger.keys.lifetime = lifetime) (hWaiters : s'.waiters = s.waiters) :
    s'.Calm lifetime := by
  refine ⟨hLifetime, ?_⟩
  rw [hWaiters]
  exact hCalm.keyless

theorem Calm.wake (hCalm : s.Calm lifetime) {l : Ledger} (hLifetime : l.keys.lifetime = lifetime)
    (woken : List Agent) : (s.wake l woken).Calm lifetime :=
  hCalm.of_ledger hLifetime rfl

theorem Calm.abandon (hCalm : s.Calm lifetime) (a : Agent) (row : Option WalletId) :
    (s.abandon a row).Calm lifetime :=
  hCalm.wake (l := (s.ledger.abandon a row).1) hCalm.lifetime_eq _

theorem Calm.moveClock (hCalm : s.Calm lifetime) (instant : Instant) :
    (s.moveClock instant).Calm lifetime :=
  hCalm.of_ledger hCalm.lifetime_eq rfl

/-! ## A turn -/

namespace Turn

/-- The schedule after a turn. -/
def schedule : Turn → Schedule
  | .ended _ s | .waiting _ s => s

/-- The limit that a turn ended at. -/
def fault? : Turn → Option Fault
  | .ended e _ => e.fault?
  | .waiting _ _ => none

/-- The schedule is calm, and if the command waits, it has no claim before it. -/
structure Calm (lifetime : Nat) (t : Turn) : Prop where
  schedule : t.schedule.Calm lifetime
  keyless : ∀ w s, t = .waiting w s → w.Keyless

end Turn

/-- What becomes of a command is calm if its program is, and it ends at a limit only if its program
has run into that. -/
theorem calm_turn (hCalm : s.Calm lifetime) (a : Agent) (deadline : Option Instant)
    {p : Progress Reply} (hProgress : p.Calm lifetime) :
    (s.turn a deadline p).Calm lifetime ∧ (s.turn a deadline p).fault? = p.fault? := by
  cases p with
  | ended r l woken => exact ⟨⟨hCalm.wake hProgress.lifetime_eq woken, by rintro _ _ ⟨⟩⟩, rfl⟩
  | faulted f l woken =>
    exact ⟨⟨(hCalm.wake hProgress.lifetime_eq woken).abandon a none, by rintro _ _ ⟨⟩⟩, rfl⟩
  | waiting c next row l woken =>
    have hWoken := hCalm.wake hProgress.lifetime_eq woken
    unfold turn
    simp only
    split
    · exact ⟨⟨hWoken.abandon a (some row), by rintro _ _ ⟨⟩⟩, rfl⟩
    · refine ⟨⟨hWoken, ?_⟩, rfl⟩
      rintro _ _ ⟨⟩
      exact hProgress.keyless

theorem calm_poll (hCalm : s.Calm lifetime) (env : Surroundings) (hKeyless : w.Keyless) :
    (s.poll env w).Calm lifetime ∧ (s.poll env w).fault? = none := by
  unfold poll
  split
  · obtain ⟨hProgress, hFault⟩ := Ledger.driveOn_keyless hKeyless env s.ledger w.agent
    rw [hCalm.lifetime_eq] at hProgress
    obtain ⟨hTurn, hSame⟩ := calm_turn hCalm w.agent w.deadline hProgress
    exact ⟨hTurn, hSame.trans hFault⟩
  · split
    · exact ⟨⟨hCalm.abandon w.agent (some w.row), by rintro _ _ ⟨⟩⟩, rfl⟩
    · refine ⟨⟨hCalm, ?_⟩, rfl⟩
      rintro _ _ ⟨⟩
      exact hKeyless

theorem Calm.replaceWaiter (hCalm : s.Calm lifetime) {ws : List Waiter}
    (hWaiters : ∀ w ∈ ws, w.Keyless) (a : Agent) {w? : Option Waiter}
    (hNew : ∀ w ∈ w?, w.Keyless) :
    Calm lifetime { s with waiters := replaceWaiter ws a w? } := by
  refine ⟨hCalm.lifetime_eq, fun v hMem => ?_⟩
  obtain ⟨w, hw, hKept⟩ := List.mem_filterMap.mp hMem
  split at hKept
  · exact hNew v hKept
  · exact Option.some.inj hKept ▸ hWaiters w hw

/-! ## Turn after turn -/

/-- None of the endings is at a limit. -/
def Faultless (endings : List (Agent × Ending)) : Prop := ∀ e ∈ endings, e.2.fault? = none

theorem calm_serve (hCalm : s.Calm lifetime) (env : Surroundings) (a : Agent) :
    (s.serve env a).1.Calm lifetime ∧ Faultless (s.serve env a).2 := by
  unfold serve
  cases hFind : s.waiters.find? (·.agent = a) with
  | none => exact ⟨hCalm, by rintro _ ⟨⟩⟩
  | some w =>
    obtain ⟨⟨hSchedule, hWaiter⟩, hFault⟩ :=
      calm_poll hCalm env (hCalm.keyless w (List.mem_of_find?_eq_some hFind))
    -- a turn takes nobody off the list of those that wait
    cases hTurn : s.poll env w with
    | ended e s' =>
      rw [hTurn] at hSchedule hFault
      simp only [hTurn]
      refine ⟨Calm.replaceWaiter hSchedule hSchedule.keyless a (by rintro _ ⟨⟩), ?_⟩
      rintro x hMem
      rw [List.mem_singleton.mp hMem]
      exact hFault
    | waiting w' s' =>
      rw [hTurn] at hSchedule hWaiter
      simp only [hTurn]
      refine ⟨Calm.replaceWaiter hSchedule hSchedule.keyless a ?_, by rintro _ ⟨⟩⟩
      rintro _ ⟨⟩
      exact hWaiter w' s' rfl

theorem calm_run (hCalm : s.Calm lifetime) (env : Surroundings) (turns : Nat) :
    (run env turns s).1.Calm lifetime ∧ Faultless (run env turns s).2 := by
  induction turns generalizing s with
  | zero => exact ⟨hCalm, by rintro _ ⟨⟩⟩
  | succ turns ih =>
    unfold run
    cases hReady : s.ready with
    | nil => exact ⟨hCalm, by rintro _ ⟨⟩⟩
    | cons a rest =>
      have hRest : Calm lifetime { s with ready := rest } := hCalm.of_ledger hCalm.lifetime_eq rfl
      obtain ⟨hServed, hFirst⟩ := calm_serve hRest env a
      obtain ⟨hOn, hLater⟩ := ih hServed
      refine ⟨hOn, fun e hMem => ?_⟩
      rcases List.mem_append.mp hMem with hOld | hNew
      · exact hFirst e hOld
      · exact hLater e hNew

/-- Commands that go on run into no limit. -/
theorem calm_settle (hCalm : s.Calm lifetime) (env : Surroundings) :
    (s.settle env).1.Calm lifetime ∧ Faultless (s.settle env).2 :=
  calm_run hCalm env _

/-- The schedule when the next deadline comes, unless a command has been given the row it waits for. -/
def movedFor (s : Schedule) (w : Waiter) : Schedule :=
  if s.isGranted w then s else
    match s.nextDeadline? w with
    | some instant => s.moveClock instant
    | none => s

theorem Calm.movedFor (hCalm : s.Calm lifetime) (w : Waiter) : (s.movedFor w).Calm lifetime := by
  unfold Schedule.movedFor
  split
  · exact hCalm
  · split
    · exact hCalm.moveClock _
    · exact hCalm

theorem await_succ (env : Surroundings) (moves : Nat) (s : Schedule) (w : Waiter) :
    await env (moves + 1) s w =
      match ((s.settle env).1.movedFor w).poll env w with
      | .ended e s' => (s', e, (s.settle env).2)
      | .waiting w' s' => ((await env moves s' w').1, (await env moves s' w').2.1,
          (s.settle env).2 ++ (await env moves s' w').2.2) :=
  rfl

/-- A command that is waited for runs into no limit, nor do the others meanwhile. -/
theorem calm_await (hCalm : s.Calm lifetime) (env : Surroundings) (hKeyless : w.Keyless)
    (moves : Nat) :
    (await env moves s w).1.Calm lifetime ∧ (await env moves s w).2.1.fault? = none ∧
      Faultless (await env moves s w).2.2 := by
  induction moves generalizing s w with
  | zero => exact ⟨hCalm.abandon w.agent (some w.row), rfl, by rintro _ ⟨⟩⟩
  | succ moves ih =>
    obtain ⟨hSettled, hEnded⟩ := calm_settle hCalm env
    obtain ⟨⟨hSchedule, hWaiter⟩, hFault⟩ := calm_poll (hSettled.movedFor w) env hKeyless
    rw [await_succ]
    cases hTurn : ((s.settle env).1.movedFor w).poll env w with
    | ended e s'' =>
      rw [hTurn] at hSchedule hFault
      exact ⟨hSchedule, hFault, hEnded⟩
    | waiting w' s'' =>
      rw [hTurn] at hSchedule hWaiter
      obtain ⟨hOn, hNone, hLater⟩ := ih hSchedule (hWaiter w' s'' rfl)
      refine ⟨hOn, hNone, fun e hMem => ?_⟩
      rcases List.mem_append.mp hMem with hOld | hNew
      · exact hEnded e hOld
      · exact hLater e hNew

/-! ## New commands -/

/-- A command that starts runs into a limit exactly if the claim of its key oversteps. -/
theorem calm_start (hCalm : s.Calm lifetime) (env : Surroundings) (deadline : Option Instant)
    {p : Program Reply} (hAsks : p.AsksFirst) :
    (s.start env p deadline).Calm lifetime ∧
      (¬ s.ledger.OverstepsFirst p ∧ (s.start env p deadline).fault? = none ∨
        s.ledger.OverstepsFirst p ∧
          (s.start env p deadline).fault? = some .instantOverflow) := by
  obtain ⟨hProgress, hFault⟩ := Ledger.drive_asksFirst hAsks env s.ledger s.nextAgent []
  rw [hCalm.lifetime_eq] at hProgress
  have hNext : Calm lifetime { s with nextAgent := s.nextAgent + 1 } :=
    hCalm.of_ledger hCalm.lifetime_eq rfl
  obtain ⟨hTurn, hSame⟩ := calm_turn hNext s.nextAgent deadline hProgress
  refine ⟨hTurn, ?_⟩
  unfold start
  rw [hSame]
  exact hFault

/-- A command that is run to its end runs into a limit exactly if the claim of its key oversteps. -/
theorem calm_execute (hCalm : s.Calm lifetime) (env : Surroundings) (deadline : Option Instant)
    {p : Program Reply} (hAsks : p.AsksFirst) :
    (s.execute env p deadline).1.Calm lifetime ∧
      (¬ s.ledger.OverstepsFirst p ∧ (s.execute env p deadline).2.1.fault? = none ∨
        s.ledger.OverstepsFirst p ∧
          (s.execute env p deadline).2.1.fault? = some .instantOverflow) ∧
      Faultless (s.execute env p deadline).2.2 := by
  obtain ⟨⟨hSchedule, hWaiter⟩, hFault⟩ :=
    calm_start hCalm env deadline hAsks
  unfold execute
  cases hTurn : s.start env p deadline with
  | ended e s' =>
    rw [hTurn] at hSchedule hFault
    exact ⟨hSchedule, hFault, by rintro _ ⟨⟩⟩
  | waiting w s' =>
    rw [hTurn] at hSchedule hFault hWaiter
    obtain ⟨hOn, hNone, hLater⟩ :=
      calm_await hSchedule env (hWaiter w s' rfl) (2 * s'.waiters.length + 3)
    refine ⟨hOn, Or.inl ⟨?_, hNone⟩, hLater⟩
    rcases hFault with ⟨hNot, -⟩ | ⟨-, hSome⟩
    · exact hNot
    · cases hSome

end Schedule

end Purse
