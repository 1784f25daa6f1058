import Purse.Proofs.Crowd.Jobs
import Purse.Proofs.Crowd.Play
import Purse.Proofs.Keys.Claims

/-!
# Crowds by the clock

A run in which commands are let run: a command that has begun goes on until it waits for a row or is
over, and is dropped, if at all, while it waits or before it has begun. In between the clock moves on,
ended claims are purged, failures are arranged, and whatever is done by hand is done call by call.
Every event is logged with the instant at which it happens (`Watch`).

## Definitions

* `Burst`: the turns that an agent takes when it is let run.
* `Ledger.Tends`: what happens to a ledger by itself or is arranged from outside.
* `Watch`: any number of bursts, of calls made by hand, of drops and of changes from outside.
* `Keyed`: what becomes of the keys by an event.

## Results

* `Watch.run`: a watch is a run.
* `turn?_keyed`: a turn takes no time, and its event tells what becomes of the keys.
* `burst_drive`: what the schedule lets run is a burst.
* `watch_watch`: what is computed by some cues is a watch.
-/

namespace Purse

/-- Whether an agent makes a call next. -/
def Thread.isCalling : Thread → Bool
  | .calling _ _ => true
  | .waiting _ _ _ | .ended _ => false

/-- What happens to a ledger by itself, or is arranged from outside. -/
inductive Ledger.Tends (l : Ledger) : Ledger → Prop where
  /-- Time goes by. -/
  | advance (ms : Nat) : Tends l { l with now := l.now + ms }
  /-- Ended claims are struck off the record. -/
  | purge : Tends l { l with keys := (l.keys.purge l.now).2 }
  /-- The next call of a name is made to fail. -/
  | fail (method : Method) (reason : String) :
      Tends l { l with failing := l.failing.put method reason }
  /-- The next update of a wallet within a transaction is made to fail. -/
  | arm (wallet : WalletId) : Tends l { l with store := l.store.arm wallet }
  /-- The journal is read and cleared. -/
  | clear : Tends l { l with journal := [] }

namespace Crowd

/-- An agent's turns, one after another, until it waits or is done. -/
inductive Burst (env : Surroundings) (a : Agent) : Crowd → List Event → Crowd → Prop where
  | last {s s' : Crowd} {e : Event} (hTurn : s.turn? env a = some (e, s'))
      (hStops : (s'.threads a).isCalling = false) : Burst env a s [e] s'
  | more {s s' s'' : Crowd} {e : Event} {es : List Event} (hTurn : s.turn? env a = some (e, s'))
      (hGoesOn : (s'.threads a).isCalling = true) (hRest : Burst env a s' es s'') :
      Burst env a s (e :: es) s''

/-- Anything that can happen while commands are let run, with the events and their instants. No key
is released by hand. -/
inductive Watch (env : Surroundings) (jobs : Agent → Job) (s₀ : Crowd) :
    List (Instant × Event) → Crowd → Prop where
  | nil : Watch env jobs s₀ [] s₀
  /-- A command is let run. -/
  | command {log : List (Instant × Event)} {s s' : Crowd} {a : Agent} {es : List Event}
      (hWatch : Watch env jobs s₀ log s) (hCommand : (jobs a).isCommand = true)
      (hBurst : Burst env a s es s') :
      Watch env jobs s₀ (log ++ es.map (s.ledger.now, ·)) s'
  /-- A call is made by hand. -/
  | byHand {log : List (Instant × Event)} {s s' : Crowd} {a : Agent} {e : Event}
      (hWatch : Watch env jobs s₀ log s) (hOther : (jobs a).isCommand = false)
      (hTurn : s.turn? env a = some (e, s'))
      (hKept : ∀ key answer, e ≠ .answered a (.release key) answer) :
      Watch env jobs s₀ (log ++ [(s.ledger.now, e)]) s'
  /-- An agent is dropped. -/
  | drop {log : List (Instant × Event)} {s : Crowd} {a : Agent}
      (hWatch : Watch env jobs s₀ log s) (hBusy : (s.threads a).isEnded = false) :
      Watch env jobs s₀ (log ++ [(s.ledger.now, .dropped a)]) (s.dropped a)
  /-- Something happens to the ledger by itself, or is arranged from outside. -/
  | tend {log : List (Instant × Event)} {s : Crowd} {l : Ledger}
      (hWatch : Watch env jobs s₀ log s) (hTends : s.ledger.Tends l) :
      Watch env jobs s₀ (log ++ [(s.ledger.now, .aside)]) ⟨l, s.threads⟩

variable {env : Surroundings} {jobs : Agent → Job} {s₀ s s' s'' : Crowd} {a b : Agent} {e : Event}
  {trace es : List Event} {log : List (Instant × Event)}

/-! ## A watch is a run -/

theorem Burst.stops (hBurst : Burst env a s es s') : (s'.threads a).isCalling = false := by
  induction hBurst with
  | last hTurn hStops => exact hStops
  | more hTurn hGoesOn hRest ih => exact ih

theorem Burst.threads_eq (hBurst : Burst env a s es s') (hb : b ≠ a) :
    s'.threads b = s.threads b := by
  induction hBurst with
  | last hTurn hStops => exact threads_turn? hTurn hb
  | more hTurn hGoesOn hRest ih => exact ih.trans (threads_turn? hTurn hb)

theorem Burst.run (hBurst : Burst env a s es s') (hRun : Run env s₀ trace s) :
    Run env s₀ (trace ++ es) s' := by
  induction hBurst generalizing trace with
  | last hTurn hStops => exact hRun.snoc (.turn hTurn)
  | more hTurn hGoesOn hRest ih =>
    rw [List.append_cons]
    exact ih (hRun.snoc (.turn hTurn))

theorem step_of_tends {l : Ledger} (hTends : s.ledger.Tends l) :
    Step env s .aside ⟨l, s.threads⟩ := by
  cases hTends with
  | arm wallet =>
    have hArm : (s.ledger.store.arm wallet).rows = s.ledger.store.rows ∧
        (s.ledger.store.arm wallet).transactions = s.ledger.store.transactions := by
      unfold Store.arm
      split <;> exact ⟨rfl, rfl⟩
    exact .aside hArm.1 hArm.2
  | advance | purge | fail | clear => exact .aside rfl rfl

theorem Watch.run (hWatch : Watch env jobs s₀ log s) : Run env s₀ (log.map Prod.snd) s := by
  induction hWatch with
  | nil => exact .nil
  | command hWatch hCommand hBurst ih =>
    rw [List.map_append, List.map_map]
    have hSame : ∀ es : List Event, es.map (Prod.snd ∘ fun e => (s.ledger.now, e)) = es :=
      fun es => (List.map_congr_left fun e _ => rfl).trans es.map_id
    simpa [hSame] using hBurst.run ih
  | byHand hWatch hOther hTurn hKept ih => simpa using ih.snoc (.turn hTurn)
  | drop hWatch hBusy ih => simpa using ih.snoc (.drop hBusy)
  | tend hWatch hTends ih => simpa using ih.snoc (step_of_tends hTends)

end Crowd

/-! ## What becomes of the keys -/

/-- What becomes of the keys by an event. -/
inductive Keyed (now : Instant) (k k' : Keys) : Event → Prop where
  /-- A key is taken into use, which it was not. -/
  | taken {a : Agent} {key : String} (hFree : k.isLive now key = false)
      (hTaken : k' = { k with claims := k.claims.put key (now + k.lifetime) }) :
      Keyed now k k' (.answered a (.claim key) (.ok false))
  /-- A key is taken out of use. -/
  | released {a : Agent} {key : String} (hReleased : k' = k.release key) :
      Keyed now k k' (.answered a (.release key) (.ok ()))
  /-- Anything else leaves the keys alone. -/
  | same {e : Event} (hNot : ∀ a key, e ≠ .answered a (.claim key) (.ok false)) (hSame : k' = k) :
      Keyed now k k' e

/-- A call takes no time, and its answer tells what becomes of the keys. -/
def Outcome.Keyed (l : Ledger) (a : Agent) {c : Call} : Outcome c → Prop
  | .replied answer l' _ => l'.now = l.now ∧ Purse.Keyed l.now l.keys l'.keys (.answered a c answer)
  | .waiting _ l' | .faulted _ l' => l'.now = l.now ∧ l'.keys = l.keys

namespace Ledger

variable {env : Surroundings} {l l' : Ledger} {a : Agent} {c : Call}

theorem keyed_ofStep {step : Store.Step c.Answer} (hNow : l'.now = l.now) (hKeys : l'.keys = l.keys)
    (hCall : ∀ key, c ≠ .claim key) : (l'.ofStep step).Keyed l a := by
  cases step with
  | replied answer s woken =>
    refine ⟨hNow, .same (fun b key hEvent => ?_) hKeys⟩
    cases hEvent
    exact hCall key rfl
  | waiting row s => exact ⟨hNow, hKeys⟩

theorem execute_keyed (env : Surroundings) : (l.execute env a c).Keyed l a := by
  cases c with
  | claim key =>
    cases hClaim : l.keys.claim l.now key with
    | error fault =>
      simp only [execute, hClaim]
      exact ⟨rfl, rfl⟩
    | ok answered =>
      obtain ⟨inUse, keys⟩ := answered
      simp only [execute, hClaim]
      cases inUse with
      | true => exact ⟨rfl, .same (by rintro _ _ ⟨⟩) (Keys.claim_inUse hClaim).2⟩
      | false =>
        obtain ⟨hFree, hTaken⟩ := Keys.claim_free hClaim
        exact ⟨rfl, .taken hFree hTaken⟩
  | release key => exact ⟨rfl, .released rfl⟩
  | lock | addWithin | add => exact keyed_ofStep rfl rfl (by rintro _ ⟨⟩)
  | insert w =>
    simp only [execute]
    cases l.store.insert w <;> exact ⟨rfl, .same (by rintro _ _ ⟨⟩) rfl⟩
  | newId =>
    simp only [execute]
    cases l.mint.next? (l.wallTime env).toMillis.toNat (env.random l.readings) <;>
      exact ⟨rfl, .same (by rintro _ _ ⟨⟩) rfl⟩
  | begin | commit | rollback | get | list | readClock =>
    exact ⟨rfl, .same (by rintro _ _ ⟨⟩) rfl⟩

theorem refuse_keyed {reason : String} : (l.refuse a c reason).Keyed l a := by
  cases c <;> exact ⟨rfl, .same (by rintro _ _ ⟨⟩) rfl⟩

theorem record_keyed : (l.record a c).now = l.now ∧ (l.record a c).keys = l.keys := by
  unfold record
  split <;> exact ⟨rfl, rfl⟩

theorem perform_keyed : (l.perform env a c).Keyed l a := by
  obtain ⟨hNow, hKeys⟩ := record_keyed (l := l) (a := a) (c := c)
  have hSame : ∀ {outcome : Outcome c}, outcome.Keyed (l.record a c) a → outcome.Keyed l a := by
    intro outcome hKeyed
    unfold Outcome.Keyed at hKeyed ⊢
    rw [hNow, hKeys] at hKeyed
    exact hKeyed
  unfold perform
  simp only
  split
  · exact hSame (execute_keyed env)
  · split
    · exact hSame refuse_keyed
    · exact hSame (execute_keyed env)

theorem resume_keyed : (l.resume env a c).Keyed l a := by
  cases c with
  | lock | addWithin | add => exact keyed_ofStep rfl rfl (by rintro _ ⟨⟩)
  | _ => exact execute_keyed env

end Ledger

namespace Crowd

variable {env : Surroundings} {jobs : Agent → Job} {s₀ s s' : Crowd} {a : Agent} {e : Event}
  {log : List (Instant × Event)}

theorem after_keyed {c : Call} {next : Result c.Answer → Program Reply} {outcome : Outcome c}
    (hKeyed : outcome.Keyed s.ledger a) :
    (s.after a next outcome).2.ledger.now = s.ledger.now ∧
      Keyed s.ledger.now s.ledger.keys (s.after a next outcome).2.ledger.keys
        (s.after a next outcome).1 := by
  cases outcome with
  | replied answer l woken => exact hKeyed
  | waiting row l => exact ⟨hKeyed.1, .same (by rintro _ _ ⟨⟩) hKeyed.2⟩
  | faulted fault l => exact ⟨hKeyed.1, .same (by rintro _ _ ⟨⟩) hKeyed.2⟩

/-- A turn takes no time, and its event tells what becomes of the keys. -/
theorem turn?_keyed (hTurn : s.turn? env a = some (e, s')) :
    s'.ledger.now = s.ledger.now ∧ Keyed s.ledger.now s.ledger.keys s'.ledger.keys e := by
  obtain ⟨c, next, ⟨-, hAfter⟩ | ⟨row, -, -, hAfter⟩⟩ := turn?_eq_some hTurn
  · obtain ⟨rfl, rfl⟩ := Prod.mk.inj hAfter
    exact after_keyed Ledger.perform_keyed
  · obtain ⟨rfl, rfl⟩ := Prod.mk.inj hAfter
    exact after_keyed Ledger.resume_keyed

/-! ## Commands that are let run -/

/-- To let a program run until it is over or waits is a burst. -/
theorem burst_drive (env : Surroundings) (a : Agent) (program : Program Reply) (s : Crowd)
    (woken : List Agent) (hThread : s.threads a = .ofProgram program)
    (hCalls : (s.threads a).isCalling = true) :
    ∃ es, Burst env a s es (s.reached a (s.ledger.drive env a program woken)) := by
  -- on the program, which makes a call at least
  induction program generalizing s woken with
  | done result =>
    rw [hThread] at hCalls
    cases hCalls
  | call c next ih =>
    have hTurn : s.turn? env a = some (s.after a next (s.ledger.perform env a c)) :=
      turn?_of_calling hThread
    cases hOutcome : s.ledger.perform env a c with
    | waiting row l =>
      rw [hOutcome] at hTurn
      simp only [Ledger.drive, hOutcome]
      have hStops : ((s.goOn a l (.waiting c next row)).threads a).isCalling = false := by
        rw [threads_goOn]
        rfl
      exact ⟨_, .last hTurn hStops⟩
    | faulted fault l =>
      rw [hOutcome] at hTurn
      simp only [Ledger.drive, hOutcome]
      have hStops : ((s.goOn a (l.abandon a none).1 (.ended (.fault fault))).threads a).isCalling =
          false := by
        rw [threads_goOn]
        rfl
      exact ⟨_, .last hTurn hStops⟩
    | replied answer l others =>
      have hTurn : s.turn? env a =
          some (.answered a c answer, s.goOn a l (.ofProgram (next answer))) := by
        rw [hTurn, hOutcome]
        rfl
      have hThen := threads_goOn (s := s) (a := a) l (.ofProgram (next answer))
      simp only [Ledger.drive, hOutcome]
      cases hStops : ((s.goOn a l (.ofProgram (next answer))).threads a).isCalling with
      | false =>
        -- the program is over with this answer
        cases hNext : next answer with
        | done result =>
          rw [hNext] at hTurn hStops
          rw [Ledger.drive]
          exact ⟨_, .last hTurn hStops⟩
        | call c' next' =>
          rw [hThen, hNext] at hStops
          cases hStops
      | true =>
        obtain ⟨es, hRest⟩ := ih answer _ (woken ++ others) hThen hStops
        rw [reached_goOn] at hRest
        exact ⟨_, .more hTurn hStops hRest⟩

/-! ## Watches that are computed -/

/-- What to do next in a watch. -/
inductive Cue where
  /-- Let a command run, or make one call by hand. -/
  | go (a : Agent)
  | drop (a : Agent)
  | advance (ms : Nat)
  | purge
  | fail (method : Method) (reason : String)

/-- Lets an agent run, for some turns at most. -/
def letRun (env : Surroundings) (a : Agent) : Nat → Crowd → List Event × Crowd
  | 0, s => ([], s)
  | turns + 1, s =>
    match s.turn? env a with
    | none => ([], s)
    | some (e, s') =>
      if (s'.threads a).isCalling then
        (e :: (letRun env a turns s').1, (letRun env a turns s').2)
      else ([e], s')

theorem burst_letRun {turns : Nat} (hSome : (letRun env a turns s).1 ≠ [])
    (hStops : ((letRun env a turns s).2.threads a).isCalling = false) :
    Burst env a s (letRun env a turns s).1 (letRun env a turns s).2 := by
  induction turns generalizing s with
  | zero => exact absurd rfl hSome
  | succ turns ih =>
    unfold letRun at hSome hStops ⊢
    cases hTurn : s.turn? env a with
    | none =>
      rw [hTurn] at hSome
      exact absurd rfl hSome
    | some next =>
      obtain ⟨e, s'⟩ := next
      rw [hTurn] at hStops
      simp only at hStops ⊢
      split
      · next hGoesOn =>
        rw [if_pos hGoesOn] at hStops
        refine .more hTurn hGoesOn (ih (fun hNone => ?_) hStops)
        -- without a further turn it would go on calling
        have hSame : (letRun env a turns s').2 = s' := by
          cases turns with
          | zero => rfl
          | succ turns =>
            unfold letRun at hNone ⊢
            split at hNone
            · simp
            · split at hNone <;> simp at hNone
        rw [hSame, hGoesOn] at hStops
        cases hStops
      · next hStop => exact .last hTurn (by simpa using hStop)

/-- Whether an event is the release of a key. -/
def isRelease : Event → Bool
  | .answered _ (.release _) _ => true
  | _ => false

/-- What comes of a cue. One that cannot be followed is passed over. -/
def follow (env : Surroundings) (jobs : Agent → Job) (s : Crowd) :
    Cue → List (Instant × Event) × Crowd
  | .go a =>
    if (jobs a).isCommand then
      let burst := letRun env a 8 s
      if burst.1 ≠ [] ∧ (burst.2.threads a).isCalling = false then
        (burst.1.map (s.ledger.now, ·), burst.2)
      else ([], s)
    else match s.turn? env a with
      | some (e, s') => if isRelease e then ([], s) else ([(s.ledger.now, e)], s')
      | none => ([], s)
  | .drop a =>
    if (s.threads a).isEnded then ([], s) else ([(s.ledger.now, .dropped a)], s.dropped a)
  | .advance ms =>
    ([(s.ledger.now, .aside)], ⟨{ s.ledger with now := s.ledger.now + ms }, s.threads⟩)
  | .purge =>
    ([(s.ledger.now, .aside)],
      ⟨{ s.ledger with keys := (s.ledger.keys.purge s.ledger.now).2 }, s.threads⟩)
  | .fail method reason =>
    ([(s.ledger.now, .aside)],
      ⟨{ s.ledger with failing := s.ledger.failing.put method reason }, s.threads⟩)

/-- What comes of some cues. -/
def watch (env : Surroundings) (jobs : Agent → Job) :
    List Cue → Crowd → List (Instant × Event) × Crowd
  | [], s => ([], s)
  | cue :: cues, s =>
    let first := follow env jobs s cue
    let rest := watch env jobs cues first.2
    (first.1 ++ rest.1, rest.2)

theorem watch_follow (hWatch : Watch env jobs s₀ log s) (cue : Cue) :
    Watch env jobs s₀ (log ++ (follow env jobs s cue).1) (follow env jobs s cue).2 := by
  have hNothing : Watch env jobs s₀ (log ++ []) s := by simpa using hWatch
  cases cue with
  | go a =>
    unfold follow
    simp only
    split
    · next hCommand =>
      split
      · next hBurst => exact .command hWatch hCommand (burst_letRun hBurst.1 hBurst.2)
      · exact hNothing
    · next hOther =>
      split
      · next e s' hTurn =>
        split
        · exact hNothing
        · next hNot =>
          refine .byHand hWatch (by simpa using hOther) hTurn fun key answer hEvent => hNot ?_
          rw [hEvent]
          rfl
      · exact hNothing
  | drop a =>
    unfold follow
    simp only
    split
    · exact hNothing
    · next hBusy => exact .drop hWatch (by simpa using hBusy)
  | advance ms => exact .tend hWatch (.advance ms)
  | purge => exact .tend hWatch .purge
  | fail method reason => exact .tend hWatch (.fail method reason)

theorem watch_watch (env : Surroundings) (jobs : Agent → Job) (cues : List Cue)
    (hWatch : Watch env jobs s₀ log s) :
    Watch env jobs s₀ (log ++ (watch env jobs cues s).1) (watch env jobs cues s).2 := by
  induction cues generalizing log s with
  | nil => simpa [watch] using hWatch
  | cons cue cues ih =>
    unfold watch
    rw [← List.append_assoc]
    exact ih (watch_follow hWatch cue)

end Crowd

end Purse
