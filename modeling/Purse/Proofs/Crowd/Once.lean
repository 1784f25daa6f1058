import Purse.Proofs.Crowd.Play
import Purse.Proofs.Crowd.Watch

/-!
# Once for each key

A top-up takes its key into use before it does anything else, and one that fails its checks gives the
key back in the same burst. So of the top-ups with one key that pass their checks, no two get past the
check of the key within the lifetime of a claim, and one that comes while such a claim is live comes
to nothing.

The lifetime counts from the check of the key. A top-up that has to wait for its row may be applied
after its claim has ended, when another one may have claimed the key anew (`applied_at_once`).

## Definitions

* `Passed`: a top-up that passes its checks got past the check of its key.
* `Timed`: what holds of the keys and the log at every turn.

## Results

* `Timed.turn`, `Timed.burst`: turns and bursts keep to it.
* `Watch.once`: top-ups with one key are a lifetime apart, and those in between come to nothing.
-/

namespace Purse.Crowd

variable {env : Surroundings} {jobs : Agent → Job} {l : Ledger} {s s' : Crowd} {a b : Agent}
  {e : Event} {trace es : List Event} {log : List (Instant × Event)} {ttl : Nat} {r : Topup}

/-- A top-up that passes its checks got past the check of its key. -/
def Passed (jobs : Agent → Job) (log : List (Instant × Event)) (a : Agent) (key : String)
    (t : Instant) : Prop :=
  ∃ r w, jobs a = .topup (some r) ∧ r.check = .ok w ∧ r.key = key ∧
    (t, .answered a (.claim key) (.ok false)) ∈ log

theorem Passed.mono {key : String} {t : Instant} (hPassed : Passed jobs log a key t)
    (more : List (Instant × Event)) : Passed jobs (log ++ more) a key t := by
  obtain ⟨r, w, hJob, hCheck, hKey, hMem⟩ := hPassed
  exact ⟨r, w, hJob, hCheck, hKey, List.mem_append_left _ hMem⟩

/-- Who has passed by now has passed before, or does so now. -/
theorem Passed.of_concat {key : String} {t now : Instant}
    (hPassed : Passed jobs (log ++ [(now, e)]) a key t) : Passed jobs log a key t ∨
      t = now ∧ e = .answered a (.claim key) (.ok false) ∧
        ∃ r w, jobs a = .topup (some r) ∧ r.check = .ok w ∧ r.key = key := by
  obtain ⟨r, w, hJob, hCheck, hKey, hMem⟩ := hPassed
  rcases List.mem_append.mp hMem with hOld | hNew
  · exact Or.inl ⟨r, w, hJob, hCheck, hKey, hOld⟩
  · obtain ⟨rfl, rfl⟩ := Prod.mk.inj (List.mem_singleton.mp hNew)
    exact Or.inr ⟨rfl, rfl, r, w, hJob, hCheck, hKey⟩

-- ---------------------------------------------------------------------------
-- The turns of a top-up
-- ---------------------------------------------------------------------------

/-- What a turn of a top-up is, with its thread before and after. -/
inductive TopupTurn (r : Topup) (a : Agent) (t t' : Thread) : Event → Prop where
  | asked (answer : Result Bool) (hKey : r.key.isEmpty = false)
      (hThen : t' = .ofProgram (r.claimed answer)) :
      TopupTurn r a t t' (.answered a (.claim r.key) answer)
  | added {w : WalletId} (answer : Result Unit) (hCheck : r.check = .ok w)
      (hBegun : t.rest? = some r.applying) (hOver : t'.rest? = none) :
      TopupTurn r a t t' (.answered a (.add w r.amount) answer)
  | gaveBack {reason : LedgerError} (answer : Result Unit) (hCheck : r.check = .error reason)
      (hBegun : t.rest? = some r.applying) (hOver : t'.rest? = none) :
      TopupTurn r a t t' (.answered a (.release r.key) answer)
  | queued (row : WalletId) (hStays : t'.rest? = t.rest?) : TopupTurn r a t t' (.queued a row)
  | faulted (fault : Fault) (hOver : t'.rest? = none) : TopupTurn r a t t' (.faulted a fault)

theorem turn?_topup (hSound : s.Sound) (hAlong : s.Along jobs) (hJob : jobs a = .topup (some r))
    (hTurn : s.turn? env a = some (e, s')) :
    TopupTurn r a (s.threads a) (s'.threads a) e := by
  have hMine := hAlong a
  rw [hJob] at hMine
  obtain ⟨-, hEnded | ⟨r', hSome, hKey, hStage⟩⟩ := hMine
  · rw [turn?_of_isEnded hEnded] at hTurn
    cases hTurn
  obtain rfl := Option.some.inj hSome
  -- whatever its call is, it may have to wait, or run into a limit
  have hOthers : ∀ {c : Call} {next : Result c.Answer → Program Reply},
      (s.threads a).rest? = some (.call c next) →
      (∀ answer, e = .answered a c answer → s'.threads a = .ofProgram (next answer) →
        TopupTurn r a (s.threads a) (s'.threads a) e) →
      TopupTurn r a (s.threads a) (s'.threads a) e := by
    intro c next hRest hAnswered
    obtain ⟨answer, hEvent, hThread, -⟩ | ⟨row, rfl, hThread, -⟩ | ⟨fault, rfl, hThread, -⟩ :=
      turn?_cases hSound hTurn hRest
    · exact hAnswered answer hEvent hThread
    · exact .queued row (by rw [hThread, hRest]; rfl)
    · exact .faulted fault (by rw [hThread]; rfl)
  rcases hStage with hRest | hRest
  · refine hOthers hRest fun answer hEvent hThread => ?_
    rw [hEvent]
    exact .asked answer hKey hThread
  · have hBegun := hRest
    unfold Topup.applying at hRest
    cases hCheck : r.check with
    | ok w =>
      rw [hCheck] at hRest
      refine hOthers hRest fun answer hEvent hThread => ?_
      rw [hEvent]
      exact .added answer hCheck hBegun (by rw [hThread]; rfl)
    | error reason =>
      rw [hCheck] at hRest
      refine hOthers hRest fun answer hEvent hThread => ?_
      rw [hEvent]
      exact .gaveBack answer hCheck hBegun (by rw [hThread]; rfl)

/-- A top-up that goes on after the check of its key got past it. -/
theorem eq_false_of_claimed {answer : Result Bool}
    (hRest : (Thread.ofProgram (r.claimed answer)).rest? = some r.applying) :
    answer = .ok false := by
  rcases answer with e | _ | _
  · cases hRest
  · rfl
  · cases hRest

/-- A transfer gives no key back. -/
theorem release_of_command {key : String} {answer : Result Unit} (hSound : s.Sound)
    (hAlong : s.Along jobs) (hCommand : (jobs a).isCommand = true)
    (hTurn : s.turn? env a = some (.answered a (.release key) answer, s')) :
    ∃ r reason, jobs a = .topup (some r) ∧ r.key = key ∧ r.check = .error reason ∧
      (s.threads a).rest? = some r.applying := by
  have hBusy : (s.threads a).isEnded ≠ true := fun hEnded => by
    simp [turn?_of_isEnded hEnded] at hTurn
  have hMine := hAlong a
  cases hJob : jobs a with
  | topup request =>
    rw [hJob] at hMine
    obtain ⟨-, hEnded | ⟨r, rfl, -, -⟩⟩ := hMine
    · exact absurd hEnded hBusy
    · cases turn?_topup hSound hAlong hJob hTurn with
      | gaveBack _ hCheck hBegun => exact ⟨r, _, rfl, rfl, hCheck, hBegun⟩
  | transfer request =>
    rw [hJob] at hMine
    obtain ⟨hEnded, -⟩ | ⟨r, legs, stage, -, -, hRest, -⟩ := hMine
    · exact absurd hEnded hBusy
    · rw [stage.program_eq] at hRest
      obtain ⟨_, hEvent, -⟩ | ⟨_, hEvent, -⟩ | ⟨_, hEvent, -⟩ := turn?_cases hSound hTurn hRest
      · cases stage <;> cases hEvent
      · cases hEvent
      · cases hEvent
  | other program hOrderly =>
    rw [hJob] at hCommand
    cases hCommand

-- ---------------------------------------------------------------------------
-- What holds at every turn
-- ---------------------------------------------------------------------------

/-- The keys and the log at every turn, with the lifetime of a claim. -/
structure Timed (jobs : Agent → Job) (ttl : Nat) (log : List (Instant × Event)) (s : Crowd) :
    Prop where
  lifetime : s.ledger.keys.lifetime = ttl
  /-- The clock does not go back. -/
  past : ∀ {t e}, (t, e) ∈ log → t ≤ s.ledger.now
  /-- The claim of a top-up that passed is on record until its lifetime is over. -/
  claimed : ∀ {a key t}, Passed jobs log a key t →
    t + ttl ≤ s.ledger.now ∨ s.ledger.keys.claims.get? key = some (t + ttl)
  /-- Top-ups with one key are a lifetime apart. -/
  apart : ∀ {a b key t u}, a ≠ b → Passed jobs log a key t → Passed jobs log b key u →
    t + ttl ≤ u ∨ u + ttl ≤ t
  named : ∀ {a key t}, Passed jobs log a key t → key.isEmpty = false
  /-- A top-up past the check of its key has been told so. -/
  begun : ∀ {a r}, jobs a = .topup (some r) → (s.threads a).rest? = some r.applying →
    ∃ t, (t, .answered a (.claim r.key) (.ok false)) ∈ log
  /-- A top-up that changed a balance had passed before. -/
  applied : ∀ {a r id amount t}, jobs a = .topup (some r) →
    (t, .answered a (.add id amount) (.ok ())) ∈ log → ∃ u, u ≤ t ∧ Passed jobs log a r.key u

namespace Timed

/-- Where a key is not in use, all claims on it have ended. -/
theorem expired {key : String} {t : Instant} (hTimed : Timed jobs ttl log s)
    (hFree : s.ledger.keys.isLive s.ledger.now key = false) (hPassed : Passed jobs log a key t) :
    t + ttl ≤ s.ledger.now := by
  rcases hTimed.claimed hPassed with hOver | hGet
  · exact hOver
  · rw [Keys.isLive_of_get? hGet] at hFree
    simpa using hFree

theorem past_concat {now t : Instant} {x : Event} (hTimed : Timed jobs ttl log s)
    (hNow : s.ledger.now ≤ now) (hMem : (t, x) ∈ log ++ [(s.ledger.now, e)]) : t ≤ now := by
  rcases List.mem_append.mp hMem with hOld | hNew
  · exact (hTimed.past hOld).trans hNow
  · rw [(Prod.mk.inj (List.mem_singleton.mp hNew)).1]
    exact hNow

/-- While the claim of a top-up that passed is live, it is the one on record. -/
theorem isLive {key : String} {t : Instant} (hTimed : Timed jobs ttl log s)
    (hPassed : Passed jobs log a key t) (hNow : s.ledger.now < t + ttl) :
    s.ledger.keys.claims.get? key = some (t + ttl) ∧
      s.ledger.keys.isLive s.ledger.now key = true := by
  have hGet := (hTimed.claimed hPassed).resolve_left (Nat.not_le.mpr hNow)
  refine ⟨hGet, ?_⟩
  rw [Keys.isLive_of_get? hGet]
  exact decide_eq_true hNow

/-- The claims after a turn. -/
theorem claimed_turn {k' : Keys} {key : String} {t : Instant} (hTimed : Timed jobs ttl log s)
    (hKeyed : Keyed s.ledger.now s.ledger.keys k' e)
    (hKept : ∀ key b answer, e = .answered b (.release key) answer →
      ∀ a t, Passed jobs log a key t → t + ttl ≤ s.ledger.now)
    (hPassed : Passed jobs (log ++ [(s.ledger.now, e)]) a key t) :
    t + ttl ≤ s.ledger.now ∨ k'.claims.get? key = some (t + ttl) := by
  cases hKeyed with
  | @taken b x hFree hTaken =>
    have hGet : k'.claims.get? key =
        if x = key then some (s.ledger.now + ttl) else s.ledger.keys.claims.get? key := by
      rw [hTaken, ← hTimed.lifetime]
      exact Table.get?_put _ _ _ _
    rcases hPassed.of_concat with hOld | ⟨rfl, hEvent, -⟩
    · by_cases hx : x = key
      · subst hx
        exact Or.inl (hTimed.expired hFree hOld)
      · rw [hGet, if_neg hx]
        exact hTimed.claimed hOld
    · cases hEvent
      exact Or.inr (hGet.trans (if_pos rfl))
  | @released b x hReleased =>
    rcases hPassed.of_concat with hOld | ⟨-, hEvent, -⟩
    · by_cases hx : key = x
      · subst hx
        exact Or.inl (hKept _ _ _ rfl _ _ hOld)
      · rw [hReleased, Keys.get?_release, if_neg hx]
        exact hTimed.claimed hOld
    · cases hEvent
  | same hNot hSame =>
    rcases hPassed.of_concat with hOld | ⟨-, hEvent, -⟩
    · rw [hSame]
      exact hTimed.claimed hOld
    · exact absurd hEvent (hNot _ _)

/-- Top-ups with one key after a turn. -/
theorem apart_turn {k' : Keys} {key : String} {t u : Instant} (hTimed : Timed jobs ttl log s)
    (hKeyed : Keyed s.ledger.now s.ledger.keys k' e) (hNe : a ≠ b)
    (hA : Passed jobs (log ++ [(s.ledger.now, e)]) a key t)
    (hB : Passed jobs (log ++ [(s.ledger.now, e)]) b key u) : t + ttl ≤ u ∨ u + ttl ≤ t := by
  -- who passes now does so where the key is not in use
  have hNew : ∀ {a b t}, e = .answered a (.claim key) (.ok false) → Passed jobs log b key t →
      t + ttl ≤ s.ledger.now := by
    rintro a b t rfl hOld
    cases hKeyed with
    | taken hFree hTaken => exact hTimed.expired hFree hOld
    | same hNot hSame => exact absurd rfl (hNot _ _)
  rcases hA.of_concat with hOldA | ⟨rfl, hEventA, -⟩
  · rcases hB.of_concat with hOldB | ⟨rfl, hEventB, -⟩
    · exact hTimed.apart hNe hOldA hOldB
    · exact Or.inl (hNew hEventB hOldA)
  · rcases hB.of_concat with hOldB | ⟨rfl, hEventB, -⟩
    · exact Or.inr (hNew hEventA hOldB)
    · rw [hEventA] at hEventB
      cases hEventB
      exact absurd rfl hNe

theorem lifetime_turn (hTimed : Timed jobs ttl log s)
    (hKeyed : Keyed s.ledger.now s.ledger.keys s'.ledger.keys e) :
    s'.ledger.keys.lifetime = ttl := by
  rw [← hTimed.lifetime]
  cases hKeyed with
  | taken hFree hTaken => rw [hTaken]
  | released hReleased => rw [hReleased]; rfl
  | same hNot hSame => rw [hSame]

/-- The key of a top-up is not blank when it is asked for. -/
theorem named_turn {key : String} {t : Instant} (hTimed : Timed jobs ttl log s) (hSound : s.Sound)
    (hAlong : s.Along jobs) (hTurn : s.turn? env a = some (e, s'))
    (hPassed : Passed jobs (log ++ [(s.ledger.now, e)]) b key t) : key.isEmpty = false := by
  rcases hPassed.of_concat with hOld | ⟨-, rfl, r, w, hJob, -, rfl⟩
  · exact hTimed.named hOld
  · obtain rfl : b = a := Option.some.inj (agent?_turn? hTurn)
    cases turn?_topup hSound hAlong hJob hTurn with
    | asked _ hKey => exact hKey

/-- A top-up past the check of its key got there before, or is told so now. -/
theorem begun_turn (hTimed : Timed jobs ttl log s) (hSound : s.Sound) (hAlong : s.Along jobs)
    (hTurn : s.turn? env a = some (e, s')) (hJob : jobs b = .topup (some r))
    (hRest : (s'.threads b).rest? = some r.applying) :
    ∃ t, (t, .answered b (.claim r.key) (.ok false)) ∈ log ++ [(s.ledger.now, e)] := by
  have hOld : (s.threads b).rest? = some r.applying →
      ∃ t, (t, .answered b (.claim r.key) (.ok false)) ∈ log ++ [(s.ledger.now, e)] :=
    fun hBefore => (hTimed.begun hJob hBefore).imp fun t hMem => List.mem_append_left _ hMem
  by_cases hb : b = a
  · subst hb
    cases turn?_topup hSound hAlong hJob hTurn with
    | asked answer hKey hThen =>
      rw [hThen] at hRest
      obtain rfl := eq_false_of_claimed hRest
      exact ⟨_, List.mem_append_right _ (List.mem_singleton_self _)⟩
    | added answer hCheck hBegun hOver => exact hOld hBegun
    | gaveBack answer hCheck hBegun hOver => exact hOld hBegun
    | queued row hStays => exact hOld (hStays ▸ hRest)
    | faulted fault hOver =>
      rw [hOver] at hRest
      cases hRest
  · rw [threads_turn? hTurn hb] at hRest
    exact hOld hRest

/-- A top-up that changes a balance got past the check of its key before. -/
theorem applied_turn {id : WalletId} {amount : Decimal} {t : Instant}
    (hTimed : Timed jobs ttl log s) (hSound : s.Sound) (hAlong : s.Along jobs)
    (hTurn : s.turn? env a = some (e, s')) (hJob : jobs b = .topup (some r))
    (hMem : (t, .answered b (.add id amount) (.ok ())) ∈ log ++ [(s.ledger.now, e)]) :
    ∃ u, u ≤ t ∧ Passed jobs (log ++ [(s.ledger.now, e)]) b r.key u := by
  rcases List.mem_append.mp hMem with hOld | hNew
  · obtain ⟨u, hBefore, hPassed⟩ := hTimed.applied hJob hOld
    exact ⟨u, hBefore, hPassed.mono _⟩
  · obtain ⟨rfl, rfl⟩ := Prod.mk.inj (List.mem_singleton.mp hNew)
    obtain rfl : b = a := Option.some.inj (agent?_turn? hTurn)
    cases turn?_topup hSound hAlong hJob hTurn with
    | added _ hCheck hBegun =>
      obtain ⟨u, hMem⟩ := hTimed.begun hJob hBegun
      exact ⟨u, hTimed.past hMem, r, id, hJob, hCheck, rfl, List.mem_append_left _ hMem⟩

/-- A turn keeps to it, unless it gives back a key whose claim belongs to a top-up that passed. -/
theorem turn (hTimed : Timed jobs ttl log s) (hSound : s.Sound) (hAlong : s.Along jobs)
    (hTurn : s.turn? env a = some (e, s'))
    (hKept : ∀ key b answer, e = .answered b (.release key) answer →
      ∀ a t, Passed jobs log a key t → t + ttl ≤ s.ledger.now) :
    Timed jobs ttl (log ++ [(s.ledger.now, e)]) s' := by
  obtain ⟨hNow, hKeyed⟩ := turn?_keyed hTurn
  refine ⟨hTimed.lifetime_turn hKeyed, fun hMem => ?_, fun hPassed => ?_, ?_, ?_, ?_, ?_⟩
  · rw [hNow]
    exact hTimed.past_concat le_rfl hMem
  · rw [hNow]
    exact hTimed.claimed_turn hKeyed hKept hPassed
  · exact fun hNe hA hB => hTimed.apart_turn hKeyed hNe hA hB
  · exact fun hPassed => hTimed.named_turn hSound hAlong hTurn hPassed
  · exact fun hJob hRest => hTimed.begun_turn hSound hAlong hTurn hJob hRest
  · exact fun hJob hMem => hTimed.applied_turn hSound hAlong hTurn hJob hMem

theorem passed_of_quiet {key : String} {t now : Instant}
    (hQuiet : ∀ key, e ≠ .answered a (.claim key) (.ok false))
    (hPassed : Passed jobs (log ++ [(now, e)]) a key t) : Passed jobs log a key t :=
  hPassed.of_concat.resolve_right fun hNew => hQuiet key hNew.2.1

/-- What is no turn keeps to it if the claims are kept that have not ended and no agent has gone
on. -/
theorem still (hTimed : Timed jobs ttl log s) (hQuiet : ∀ a c answer, e ≠ .answered a c answer)
    (hNow : s.ledger.now ≤ s'.ledger.now)
    (hLifetime : s'.ledger.keys.lifetime = s.ledger.keys.lifetime)
    (hKept : ∀ key expiry, s.ledger.keys.claims.get? key = some expiry →
      expiry ≤ s'.ledger.now ∨ s'.ledger.keys.claims.get? key = some expiry)
    (hThreads : ∀ b program, (s'.threads b).rest? = some program →
      (s.threads b).rest? = some program) :
    Timed jobs ttl (log ++ [(s.ledger.now, e)]) s' := by
  have hOld : ∀ {a key t}, Passed jobs (log ++ [(s.ledger.now, e)]) a key t →
      Passed jobs log a key t :=
    fun hPassed => passed_of_quiet (fun key => hQuiet _ _ _) hPassed
  refine ⟨hLifetime.trans hTimed.lifetime, hTimed.past_concat hNow, ?_, ?_, ?_, ?_, ?_⟩
  · intro a key t hPassed
    rcases hTimed.claimed (hOld hPassed) with hOver | hGet
    · exact Or.inl (hOver.trans hNow)
    · exact hKept key _ hGet
  · exact fun hNe hA hB => hTimed.apart hNe (hOld hA) (hOld hB)
  · exact fun hPassed => hTimed.named (hOld hPassed)
  · intro a r hJob hRest
    exact (hTimed.begun hJob (hThreads a _ hRest)).imp fun t hMem => List.mem_append_left _ hMem
  · intro a r id amount t hJob hMem
    rcases List.mem_append.mp hMem with hBefore | hNew
    · obtain ⟨u, hEarlier, hPassed⟩ := hTimed.applied hJob hBefore
      exact ⟨u, hEarlier, hPassed.mono _⟩
    · exact absurd (Prod.mk.inj (List.mem_singleton.mp hNew)).2.symm (hQuiet _ _ _)

end Timed

-- ---------------------------------------------------------------------------
-- Bursts
-- ---------------------------------------------------------------------------

/-- A top-up that is about to give its key back has found it free: all claims on it have ended. -/
def GivesBack (jobs : Agent → Job) (ttl : Nat) (log : List (Instant × Event)) (s : Crowd)
    (a : Agent) : Prop :=
  ∀ r reason, jobs a = .topup (some r) → r.check = .error reason →
    (s.threads a).rest? = some r.applying →
    ∀ b t, Passed jobs log b r.key t → t + ttl ≤ s.ledger.now

/-- A top-up gives its key back in the burst in which it took it. -/
theorem GivesBack.turn (hGives : GivesBack jobs ttl log s a) (hTimed : Timed jobs ttl log s)
    (hSound : s.Sound) (hAlong : s.Along jobs) (hTurn : s.turn? env a = some (e, s')) :
    GivesBack jobs ttl (log ++ [(s.ledger.now, e)]) s' a := by
  intro r reason hJob hCheck hRest b t hPassed
  obtain ⟨hNow, hKeyed⟩ := turn?_keyed hTurn
  rw [hNow]
  have hQuiet : (∀ key, e ≠ .answered b (.claim key) (.ok false)) →
      (s.threads a).rest? = some r.applying → t + ttl ≤ s.ledger.now :=
    fun hNot hBefore => hGives r reason hJob hCheck hBefore b t (Timed.passed_of_quiet hNot hPassed)
  cases turn?_topup hSound hAlong hJob hTurn with
  | asked answer hKey hThen =>
    rw [hThen] at hRest
    obtain rfl := eq_false_of_claimed hRest
    cases hKeyed with
    | taken hFree hTaken =>
      -- the top-up itself does not pass its checks
      rcases hPassed.of_concat with hOld | ⟨-, hEvent, r', w, hJob', hCheck', -⟩
      · exact hTimed.expired hFree hOld
      · cases hEvent
        rw [hJob] at hJob'
        cases hJob'
        rw [hCheck] at hCheck'
        cases hCheck'
    | same hNot hSame => exact absurd rfl (hNot _ _)
  | added answer hCheck' hBegun hOver => exact hQuiet (by rintro _ ⟨⟩) hBegun
  | gaveBack answer hCheck' hBegun hOver => exact hQuiet (by rintro _ ⟨⟩) hBegun
  | queued row hStays => exact hQuiet (by rintro _ ⟨⟩) (hStays ▸ hRest)
  | faulted fault hOver =>
    rw [hOver] at hRest
    cases hRest

/-- A burst of a command keeps to it. -/
theorem Timed.burst (hResting : l.store.Resting) (hBurst : Burst env a s es s')
    (hCommand : (jobs a).isCommand = true) (hRun : Run env (start jobs l) trace s)
    (hTimed : Timed jobs ttl log s) (hGives : GivesBack jobs ttl log s a) :
    Timed jobs ttl (log ++ es.map (s.ledger.now, ·)) s' := by
  have hKept : ∀ {s s' e trace log}, Run env (start jobs l) trace s →
      s.turn? env a = some (e, s') → GivesBack jobs ttl log s a →
      ∀ key b answer, e = .answered b (.release key) answer →
        ∀ b t, Passed jobs log b key t → t + ttl ≤ s.ledger.now := by
    rintro s s' _ trace log hRun hTurn hGives key b answer rfl c t hPassed
    have hSound := hRun.sound (sound_start hResting jobs)
    obtain rfl : b = a := Option.some.inj (agent?_turn? hTurn)
    obtain ⟨r, reason, hJob, rfl, hCheck, hBegun⟩ :=
      release_of_command hSound (hRun.along hResting) hCommand hTurn
    exact hGives r reason hJob hCheck hBegun c t hPassed
  -- on the burst: whoever is about to give a key back has found it free in the same burst
  induction hBurst generalizing log trace with
  | last hTurn hStops =>
    have hSound := hRun.sound (sound_start hResting jobs)
    exact hTimed.turn hSound (hRun.along hResting) hTurn (hKept hRun hTurn hGives)
  | more hTurn hGoesOn hRest ih =>
    have hSound := hRun.sound (sound_start hResting jobs)
    have hAlong := hRun.along hResting
    have hNext := hTimed.turn hSound hAlong hTurn (hKept hRun hTurn hGives)
    have hLater := ih (hRun.snoc (.turn hTurn)) hNext (hGives.turn hTimed hSound hAlong hTurn)
    rw [(turn?_keyed hTurn).1] at hLater
    rw [List.map_cons, List.append_cons]
    exact hLater

-- ---------------------------------------------------------------------------
-- Watches
-- ---------------------------------------------------------------------------

/-- No top-up is about to give its key back. -/
def NoneGivesBack (jobs : Agent → Job) (s : Crowd) : Prop :=
  ∀ a r reason, jobs a = .topup (some r) → r.check = .error reason →
    (s.threads a).rest? ≠ some r.applying

theorem rest?_start (jobs : Agent → Job) (l : Ledger) (hJob : jobs a = .topup (some r)) :
    ((start jobs l).threads a).rest? ≠ some r.applying := by
  show (Thread.ofProgram (jobs a).program).rest? ≠ _
  rw [hJob, Job.program, toppingUp_some]
  split
  · rintro ⟨⟩
  · unfold Topup.applying
    split <;> rintro ⟨⟩

theorem timed_start (jobs : Agent → Job) (l : Ledger) :
    Timed jobs l.keys.lifetime [] (start jobs l) := by
  have hNone : ∀ {a key t}, ¬ Passed jobs [] a key t := by
    rintro a key t ⟨r, w, -, -, -, hMem⟩
    exact absurd hMem List.not_mem_nil
  exact {
    lifetime := rfl
    past := fun hMem => absurd hMem List.not_mem_nil
    claimed := fun hPassed => absurd hPassed hNone
    apart := fun _ hPassed _ => absurd hPassed hNone
    named := fun hPassed => absurd hPassed hNone
    begun := fun hJob hRest => absurd hRest (rest?_start jobs l hJob)
    applied := fun _ hMem => absurd hMem List.not_mem_nil }

/-- A burst leaves no top-up about to give its key back: giving back is no call to wait at. -/
theorem NoneGivesBack.burst (hNone : NoneGivesBack jobs s) (hBurst : Burst env a s es s')
    (hSound : s'.Sound) : NoneGivesBack jobs s' := by
  intro b r reason hJob hCheck hRest
  by_cases hb : b = a
  · subst hb
    have hStops := hBurst.stops
    obtain ⟨isOpen, hOrderly, -⟩ := hSound.orderly b
    cases hThread : s'.threads b with
    | calling c next =>
      rw [hThread] at hStops
      cases hStops
    | waiting c next row =>
      rw [hThread] at hRest hOrderly
      unfold Topup.applying at hRest
      rw [hCheck] at hRest
      cases hRest
      cases hOrderly.2
    | ended ending =>
      rw [hThread] at hRest
      cases hRest
  · rw [hBurst.threads_eq hb] at hRest
    exact hNone b r reason hJob hCheck hRest

/-- What happens to a ledger by itself keeps the claims that have not ended. -/
theorem Timed.tend {l : Ledger} (hTimed : Timed jobs ttl log s) (hTends : s.ledger.Tends l) :
    Timed jobs ttl (log ++ [(s.ledger.now, .aside)]) ⟨l, s.threads⟩ := by
  have hQuiet : ∀ a c answer, Event.aside ≠ .answered a c answer := by
    rintro a c answer ⟨⟩
  cases hTends with
  | advance ms =>
    exact hTimed.still hQuiet (Nat.le_add_right _ _) rfl
      (fun _ _ hGet => Or.inr hGet) fun _ _ hRest => hRest
  | purge =>
    refine hTimed.still hQuiet le_rfl rfl (fun key expiry hGet => ?_) fun _ _ hRest => hRest
    by_cases hOver : expiry ≤ s.ledger.now
    · exact Or.inl hOver
    · refine Or.inr ?_
      show (s.ledger.keys.purge s.ledger.now).2.claims.get? key = some expiry
      rw [Keys.get?_purge, hGet]
      simpa [Option.filter] using hOver
  | fail | arm | clear =>
    exact hTimed.still hQuiet le_rfl rfl (fun _ _ hGet => Or.inr hGet) fun _ _ hRest => hRest

/-- To drop an agent is to let no agent go on. -/
theorem rest?_of_dropped {program : Program Reply}
    (hRest : ((s.dropped a).threads b).rest? = some program) :
    (s.threads b).rest? = some program := by
  by_cases hb : b = a
  · subst hb
    unfold Crowd.dropped at hRest
    rw [threads_goOn] at hRest
    cases hRest
  · rwa [show (s.dropped a).threads b = s.threads b from Function.update_of_ne hb _ _] at hRest

theorem Timed.dropped (hTimed : Timed jobs ttl log s) (a : Agent) :
    Timed jobs ttl (log ++ [(s.ledger.now, .dropped a)]) (s.dropped a) :=
  hTimed.still (by rintro _ _ _ ⟨⟩) le_rfl rfl (fun _ _ hGet => Or.inr hGet)
    fun _ _ hRest => rest?_of_dropped hRest

theorem Watch.timed (hResting : l.store.Resting)
    (hWatch : Watch env jobs (start jobs l) log s) :
    Timed jobs l.keys.lifetime log s ∧ NoneGivesBack jobs s := by
  -- between bursts no top-up is about to give its key back, so the clock may move on
  induction hWatch with
  | nil => exact ⟨timed_start jobs l, fun a r reason hJob _ => rest?_start jobs l hJob⟩
  | command hWatch hCommand hBurst ih =>
    obtain ⟨hTimed, hNone⟩ := ih
    refine ⟨hTimed.burst hResting hBurst hCommand hWatch.run ?_, hNone.burst hBurst ?_⟩
    · exact fun r reason hJob hCheck hRest => absurd hRest (hNone _ r reason hJob hCheck)
    · exact (hBurst.run hWatch.run).sound (sound_start hResting jobs)
  | @byHand log s s' a e hWatch hOther hTurn hKept ih =>
    obtain ⟨hTimed, hNone⟩ := ih
    have hSound := hWatch.run.sound (sound_start hResting jobs)
    refine ⟨hTimed.turn hSound (hWatch.run.along hResting) hTurn ?_, ?_⟩
    · rintro key b answer rfl
      obtain rfl : b = a := Option.some.inj (agent?_turn? hTurn)
      exact absurd rfl (hKept key answer)
    · intro b r reason hJob hCheck hRest
      rw [threads_turn? hTurn] at hRest
      · exact hNone b r reason hJob hCheck hRest
      · rintro rfl
        rw [hJob] at hOther
        cases hOther
  | @drop log s a hWatch hBusy ih =>
    obtain ⟨hTimed, hNone⟩ := ih
    refine ⟨hTimed.dropped a, fun b r reason hJob hCheck hRest => ?_⟩
    exact hNone b r reason hJob hCheck (rest?_of_dropped hRest)
  | tend hWatch hTends ih => exact ⟨ih.1.tend hTends, ih.2⟩

/-- A key that is in use is answered to be so, unless the call is made to fail. -/
theorem perform_claim (env : Surroundings) (l : Ledger) (a : Agent) {key : String}
    (hLive : l.keys.isLive l.now key = true) : ∃ (answer : Result Bool) (l' : Ledger),
      l.perform env a (.claim key) = .replied answer l' [] ∧ l'.store = l.store ∧
      l'.keys = l.keys ∧ answer = match l.failing.get? .claim with
        | some reason => .error (.internal reason)
        | none => .ok true := by
  unfold Ledger.perform Ledger.record
  simp only [Call.method?]
  cases l.failing.get? .claim with
  | some reason => exact ⟨_, _, rfl, rfl, rfl, rfl⟩
  | none =>
    simp only [Ledger.execute, Keys.claim_of_isLive hLive]
    exact ⟨_, _, rfl, rfl, rfl, rfl⟩

/-- A top-up whose key is in use comes to nothing at its first call. -/
theorem refused_of_isLive (hJob : jobs b = .topup (some r)) (hKey : r.key.isEmpty = false)
    (hThread : s.threads b = .ofProgram (jobs b).program)
    (hLive : s.ledger.keys.isLive s.ledger.now r.key = true) :
    ∃ e s', Burst env b s [e] s' ∧
      s'.threads b = .ended (.result (.error (match s.ledger.failing.get? .claim with
        | some reason => .internal reason
        | none => .alreadyExists))) ∧
      s'.ledger.store = s.ledger.store ∧ s'.ledger.keys = s.ledger.keys := by
  obtain ⟨answer, l', hPerform, hStore, hKeys, hAnswer⟩ :=
    perform_claim env s.ledger b hLive
  have hCalling : s.threads b = .calling (.claim r.key) r.claimed := by
    rw [hThread, hJob, Job.program, toppingUp_some, if_neg (by simp [hKey])]
    rfl
  have hTurn : s.turn? env b =
      some (.answered b (.claim r.key) answer, s.goOn b l' (.ofProgram (r.claimed answer))) := by
    rw [turn?_of_calling hCalling, hPerform]
    rfl
  have hThen : (s.goOn b l' (.ofProgram (r.claimed answer))).threads b =
      .ended (.result (.error (match s.ledger.failing.get? .claim with
        | some reason => .internal reason
        | none => .alreadyExists))) := by
    rw [threads_goOn, hAnswer]
    cases s.ledger.failing.get? .claim <;> rfl
  exact ⟨_, _, .last hTurn (by rw [hThen]; rfl), hThen, hStore, hKeys⟩

/-- Of the top-ups with one key that pass their checks, those that get past the check of the key are a
lifetime apart, and so are those, by the checks of the key, that change a balance. While the claim of
one of them is live it stays as it is, and any top-up with the key comes to nothing: it is answered
that the key is in use, unless the check of the key is made to fail, and changes neither wallets nor
keys. -/
theorem Watch.once (hResting : l.store.Resting)
    (hWatch : Watch env jobs (start jobs l) log s) :
    (∀ {a b key t u}, a ≠ b → Passed jobs log a key t → Passed jobs log b key u → t ≤ u →
      t + l.keys.lifetime ≤ u) ∧
    (∀ {a b r r' id id' amount amount' t u}, a ≠ b → jobs a = .topup (some r) →
      jobs b = .topup (some r') → r.key = r'.key →
      (t, .answered a (.add id amount) (.ok ())) ∈ log →
      (u, .answered b (.add id' amount') (.ok ())) ∈ log →
      ∃ t' u', t' ≤ t ∧ u' ≤ u ∧ Passed jobs log a r.key t' ∧ Passed jobs log b r.key u' ∧
        (t' + l.keys.lifetime ≤ u' ∨ u' + l.keys.lifetime ≤ t')) ∧
    (∀ {a key t}, Passed jobs log a key t → s.ledger.now < t + l.keys.lifetime →
      s.ledger.keys.claims.get? key = some (t + l.keys.lifetime) ∧
      ∀ {b r}, jobs b = .topup (some r) → r.key = key →
        s.threads b = .ofProgram (jobs b).program →
        ∃ e s', Burst env b s [e] s' ∧
          s'.threads b = .ended (.result (.error (match s.ledger.failing.get? .claim with
            | some reason => .internal reason
            | none => .alreadyExists))) ∧
          s'.ledger.store = s.ledger.store ∧ s'.ledger.keys = s.ledger.keys) := by
  obtain ⟨hTimed, -⟩ := hWatch.timed hResting
  refine ⟨?_, ?_, ?_⟩
  · intro a b key t u hNe hA hB hLe
    rcases hTimed.apart hNe hA hB with hAfter | hBefore
    · exact hAfter
    · -- at one instant, with claims that do not last
      exact (Nat.add_le_add_right hLe _).trans (hBefore.trans hLe)
  · intro a b r r' id id' amount amount' t u hNe hA hB hKey hAddA hAddB
    obtain ⟨t', hLeA, hPassedA⟩ := hTimed.applied hA hAddA
    obtain ⟨u', hLeB, hPassedB⟩ := hTimed.applied hB hAddB
    rw [← hKey] at hPassedB
    exact ⟨t', u', hLeA, hLeB, hPassedA, hPassedB, hTimed.apart hNe hPassedA hPassedB⟩
  · intro a key t hPassed hNow
    obtain ⟨hGet, hLive⟩ := hTimed.isLive hPassed hNow
    refine ⟨hGet, fun {b r} hJob hKey hThread => ?_⟩
    subst hKey
    exact refused_of_isLive hJob (hTimed.named hPassed) hThread hLive

-- ---------------------------------------------------------------------------
-- A claim that ends before its top-up is applied
-- ---------------------------------------------------------------------------

/-- Locks the row of a wallet by hand and lets go of it. -/
def holding (wallet user : Nat) : Job :=
  .other (.call .begin fun
    | .ok _ => .call (.lock (.ofNat wallet) (.ofNat user)) fun _ =>
      .call .rollback fun _ => .done (.ok .unit)
    | .error e => .done (.error e))
  ⟨rfl, fun
    | .ok _ => ⟨rfl, fun _ => ⟨rfl, fun _ => rfl⟩⟩
    | .error _ => rfl⟩

/-- The wallets of users 1 and 2, and claims that last a second. -/
def secondLedger : Ledger :=
  { duoLedger (coins 10) (coins 10) with keys := Keys.empty 1000 }

/-- A row that is locked by hand, and top-ups with one key of both wallets. -/
def crossing : Agent → Job :=
  jobsOf [holding 1 1, into 1 (coins 3) "key", into 2 (coins 4) " key", into 2 (coins 5) "key"]

/-- When a key was claimed by an agent. -/
def passes (log : List (Instant × Event)) (a : Agent) (key : String) : List Instant :=
  log.filterMap fun
    | (t, .answered b (.claim x) (.ok false)) => if b = a ∧ x = key then some t else none
    | _ => none

/-- Who added to a balance at once, and when. -/
def additions (log : List (Instant × Event)) : List (Instant × Agent) :=
  log.filterMap fun
    | (t, .answered a (.add _ _) (.ok _)) => some (t, a)
    | _ => none

theorem mem_of_passes {key : String} {t : Instant} (hMem : t ∈ passes log a key) :
    (t, .answered a (.claim key) (.ok false)) ∈ log := by
  unfold passes at hMem
  obtain ⟨x, hLogged, hSome⟩ := List.mem_filterMap.mp hMem
  split at hSome
  · next t' b y =>
    split at hSome
    · next hSame =>
      obtain ⟨rfl, rfl⟩ := hSame
      rw [← Option.some.inj hSome]
      exact hLogged
    · cases hSome
  · cases hSome

theorem exists_of_additions {t : Instant} (hMem : (t, a) ∈ additions log) :
    ∃ id amount, (t, .answered a (.add id amount) (.ok ())) ∈ log := by
  unfold additions at hMem
  obtain ⟨x, hLogged, hSome⟩ := List.mem_filterMap.mp hMem
  split at hSome
  · next t' b id amount done =>
    obtain ⟨rfl, rfl⟩ := Prod.mk.inj (Option.some.inj hSome)
    exact ⟨id, amount, hLogged⟩
  · cases hSome

/-- The first top-up waits for its row until its claim has ended and another one has claimed the key:
both are applied at one instant, and with them the balances change twice in the lifetime of a claim.
And a third one that comes while the second claim is live is not told that the key is in use, as the
check of the key is made to fail. -/
theorem applied_at_once :
    let run := watch stillness crossing
      [.go 0, .go 0, .go 1, .advance 1000, .go 2, .go 0, .go 1, .fail .claim "down", .go 3]
      (start crossing secondLedger)
    Watch stillness crossing (start crossing secondLedger) run.1 run.2 ∧
      secondLedger.keys.lifetime = 1000 ∧
      additions run.1 = [(1000, 2), (1000, 1)] ∧
      (run.2.ledger.store.wallets.map Wallet.balance = [coins 13, coins 14]) ∧
      run.2.ledger.keys.isLive run.2.ledger.now "key" = true ∧
      (run.2.threads 3).failure? = some (.internal "down") := by
  refine ⟨?_, rfl, ?_⟩
  · simpa using watch_watch stillness crossing _ .nil
  · decide +kernel

theorem passed_of_passes {key : String} {t : Instant} {w : WalletId}
    (hJob : jobs a = .topup (some r)) (hCheck : r.check.toOption = some w) (hKey : r.key = key)
    (hMem : t ∈ passes log a key) : Passed jobs log a key t := by
  refine ⟨r, w, hJob, ?_, hKey, mem_of_passes hMem⟩
  cases hResult : r.check with
  | ok v =>
    rw [hResult] at hCheck
    rw [← Option.some.inj hCheck]
  | error e =>
    rw [hResult] at hCheck
    cases hCheck

/-- The same without a failure: the two that are applied at one instant got past the check of the key
a lifetime apart, and a third one is told that the key is in use. -/
theorem claims_apart :
    let run := watch stillness crossing
      [.go 0, .go 0, .go 1, .advance 1000, .go 2, .go 0, .go 1] (start crossing secondLedger)
    Passed crossing run.1 1 "key" 0 ∧ Passed crossing run.1 2 "key" 1000 ∧
      0 + secondLedger.keys.lifetime ≤ 1000 ∧
      (∃ t u, t ≤ 1000 ∧ u ≤ 1000 ∧ Passed crossing run.1 1 "key" t ∧
        Passed crossing run.1 2 "key" u ∧
        (t + secondLedger.keys.lifetime ≤ u ∨ u + secondLedger.keys.lifetime ≤ t)) ∧
      run.2.ledger.keys.claims.get? "key" = some (1000 + secondLedger.keys.lifetime) ∧
      ∃ e s', Burst stillness 3 run.2 [e] s' ∧
        s'.threads 3 = .ended (.result (.error .alreadyExists)) ∧
        s'.ledger.store = run.2.ledger.store ∧ s'.ledger.keys = run.2.ledger.keys := by
  intro run
  have hFacts : passes run.1 1 "key" = [0] ∧ passes run.1 2 "key" = [1000] ∧
      additions run.1 = [(1000, 2), (1000, 1)] ∧
      run.2.ledger.now = 1000 ∧ run.2.ledger.failing.get? .claim = none := by
    decide +kernel
  obtain ⟨hFirst, hSecond, hAdditions, hNow, hEarnest⟩ := hFacts
  have hWatch : Watch stillness crossing (start crossing secondLedger) run.1 run.2 := by
    simpa using watch_watch stillness crossing _ .nil
  have hResting : secondLedger.store.Resting := resting_duoLedger _ _
  have hPassed₁ : Passed crossing run.1 1 "key" 0 :=
    passed_of_passes (w := .ofNat 1) rfl (by decide +kernel) (by decide +kernel) (by simp [hFirst])
  have hPassed₂ : Passed crossing run.1 2 "key" 1000 :=
    passed_of_passes (w := .ofNat 2) rfl (by decide +kernel) (by decide +kernel) (by simp [hSecond])
  obtain ⟨_, _, hAdd₁⟩ : ∃ id amount, (1000, .answered 1 (.add id amount) (.ok ())) ∈ run.1 :=
    exists_of_additions (by simp [hAdditions])
  obtain ⟨_, _, hAdd₂⟩ : ∃ id amount, (1000, .answered 2 (.add id amount) (.ok ())) ∈ run.1 :=
    exists_of_additions (by simp [hAdditions])
  obtain ⟨hApart, hApplied, hLive⟩ := Watch.once hResting hWatch
  have hSoon : run.2.ledger.now < 1000 + secondLedger.keys.lifetime := by
    rw [hNow]
    decide
  obtain ⟨hGet, hRefused⟩ := hLive hPassed₂ hSoon
  obtain ⟨e, s', hBurst, hEnded, hSame⟩ := hRefused (b := 3) rfl (by decide +kernel) rfl
  rw [hEarnest] at hEnded
  have hKey : (Topup.mk (WalletId.ofNat 1).text (UserId.ofNat 1).text (coins 3) "key").key =
      "key" := by decide +kernel
  have hBoth := hApplied (by decide) rfl rfl (by decide +kernel) hAdd₁ hAdd₂
  rw [hKey] at hBoth
  exact ⟨hPassed₁, hPassed₂, hApart (by decide) hPassed₁ hPassed₂ (Nat.zero_le _), hBoth, hGet, e,
    s', hBurst, hEnded, hSame⟩

end Purse.Crowd
