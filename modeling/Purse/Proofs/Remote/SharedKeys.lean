import Mathlib.Data.List.Induction
import Purse.Remote.KeyTable
import Purse.Proofs.Crowd.Play
import Purse.Proofs.Service.TopupCalls

/-!
# Top-ups that share a key server

Any number of top-ups over one key server. Each call takes effect at one moment, the calls of the
top-ups come in any order, and any time may pass between two calls. A claim does not say whose it is,
and a release deletes whatever claim stands. So a release is safe as long as it takes effect while the
releaser's own claim lasts, and a late one, which finds somebody else's claim in that place, is what it
takes for a key to come free that has been used.

## Definitions

* `Effect`: what a call does to the key server.
* `Topups`, `Topups.Run`: top-ups side by side, and how they go on.
* `Stands`: the claim that stands for a key.
* `Late`: a release came after the end of the releaser's claim.
* `Topups.lateRelease`: what three requests come to, the first of which gives its key back late.

## Results

* `Topups.Run.get?_name`: the key server has the claims that stand.
* `Topups.Run.stands`: without a late release, a live claim stands until it is given back.
* `Topups.Run.undisturbed_or_late`: a release leaves the claims of others alone, and a key that has been
  used stays in use, unless there was a late release.
* `Topups.run_lateRelease`, `Topups.used_key_comes_free`: a late release does let a key come free that
  has been used.
-/

namespace Purse.Remote

open Program

-- ---------------------------------------------------------------------------
-- Calls on the key server
-- ---------------------------------------------------------------------------

/-- How long a claim does last on the server, in milliseconds. -/
def KeySpace.lifetime (space : KeySpace) : Nat := space.seconds * 1000

theorem KeySpace.name_inj {space : KeySpace} {key key' : String} :
    space.name key = space.name key' ↔ key = key' :=
  String.append_right_inj space.keyPrefix

@[simp] theorem KeyTable.now_empty : KeyTable.empty.now = 0 := rfl

@[simp] theorem KeyTable.now_set (t : KeyTable) (name : String) (seconds : Nat) :
    (t.set name seconds).2.now = t.now := by
  unfold set
  split <;> rfl

@[simp] theorem KeyTable.now_delete (t : KeyTable) (name : String) :
    (t.delete name).2.now = t.now := rfl

@[simp] theorem KeyTable.now_advance (t : KeyTable) (ms : Nat) :
    (t.advance ms).now = t.now + ms := rfl

/-- What the key server makes of a call, if it is for the key server. -/
def served? (space : KeySpace) (t : KeyTable) (c : Call) : Option (Result c.Answer × KeyTable) :=
  (keyInquiry? space c).map fun inquiry =>
    (inquiry.result (KeyTable.answer inquiry.command t).1, (KeyTable.answer inquiry.command t).2)

/-- A claim finds the key free exactly if its name is not set, and then it sets it. -/
theorem served?_claim (space : KeySpace) (t : KeyTable) (key : String) :
    served? space t (.claim key) =
      some (.ok (t.isSet (space.name key)), (t.set (space.name key) space.seconds).2) := by
  have hWord : (t.set (space.name key) space.seconds).1.isNone = t.isSet (space.name key) := by
    unfold KeyTable.set
    cases t.isSet (space.name key) <;> rfl
  rw [← hWord]
  rfl

theorem served?_release (space : KeySpace) (t : KeyTable) (key : String) :
    served? space t (.release key) = some (.ok (), (t.delete (space.name key)).2) := rfl

/-- What a call does to the names that are set. One that is not for the key server leaves them alone,
and may be answered anything. -/
inductive Effect (space : KeySpace) (t : KeyTable) : Exchange → KeyTable → Prop where
  | keys {c : Call} {answer : Result c.Answer} {t' : KeyTable}
      (hServed : served? space t c = some (answer, t')) : Effect space t ⟨c, answer⟩ t'
  | others {c : Call} (hOthers : served? space t c = none) (answer : Result c.Answer) :
      Effect space t ⟨c, answer⟩ t

section Effect

variable {space : KeySpace} {t t' : KeyTable} {x : Exchange} {key : String}

theorem effect_iff {c : Call} {answer served : Result c.Answer} {t₁ : KeyTable}
    (hServed : served? space t c = some (served, t₁)) :
    Effect space t ⟨c, answer⟩ t' ↔ answer = served ∧ t' = t₁ := by
  constructor
  · intro hEffect
    generalize hCall : (⟨c, answer⟩ : Exchange) = x at hEffect
    cases hEffect with
    | others hOthers =>
      cases hCall
      rw [hServed] at hOthers
      cases hOthers
    | keys hKeys =>
      cases hCall
      rw [hServed] at hKeys
      cases hKeys
      exact ⟨rfl, rfl⟩
  · rintro ⟨rfl, rfl⟩
    exact Effect.keys hServed

theorem effect_claim {answer : Result Bool} :
    Effect space t ⟨.claim key, answer⟩ t' ↔ answer = .ok (t.isSet (space.name key)) ∧
      t' = (t.set (space.name key) space.seconds).2 :=
  effect_iff (served?_claim space t key)

theorem effect_release {answer : Result Unit} :
    Effect space t ⟨.release key, answer⟩ t' ↔
      answer = .ok () ∧ t' = (t.delete (space.name key)).2 :=
  effect_iff (served?_release space t key)

theorem Effect.now_eq (hEffect : Effect space t x t') : t'.now = t.now := by
  obtain ⟨c, answer⟩ := x
  cases c with
  | claim key =>
    obtain ⟨-, rfl⟩ := effect_claim.mp hEffect
    exact t.now_set _ _
  | release key =>
    obtain ⟨-, rfl⟩ := effect_release.mp hEffect
    exact t.now_delete _
  | begin | commit | rollback | lock _ _ | addWithin _ _ | add _ _ | insert _ | get _ | list _
  | newId | readClock =>
    cases hEffect with
    | keys hKeys => cases hKeys
    | others => rfl

end Effect

-- ---------------------------------------------------------------------------
-- Top-ups side by side
-- ---------------------------------------------------------------------------

/-- A call of a top-up, and the instant at which it took effect. -/
structure Entry where
  time : Instant
  request : Nat
  exchange : Exchange

namespace Entry

/-- The call has found the key free and claimed it. -/
def Claims (key : String) (x : Entry) : Prop := x.exchange = ⟨.claim key, .ok false⟩

/-- The call gives the key back. -/
def Releases (key : String) (x : Entry) : Prop := x.exchange.call = .release key

/-- The call has changed a balance. -/
def Applies (x : Entry) : Prop := ∃ w amount, x.exchange = ⟨.add w amount, .ok ()⟩

end Entry

/-- Top-ups on their way: the key server, what is left of each request, and the calls so far. -/
structure Topups where
  table : KeyTable
  rest : Nat → Program Unit
  log : List Entry

/-- The calls of one request. -/
def ofRequest (i : Nat) (log : List Entry) : List Exchange :=
  (log.filter (·.request = i)).map Entry.exchange

/-- What top-ups can come to. Time passes, or one of the requests makes its next call. -/
inductive Topups.Run (space : KeySpace) (requests : Nat → Option Topup) : Topups → Prop where
  | start : Run space requests ⟨KeyTable.empty, fun i => topup (requests i), []⟩
  | wait {s : Topups} (hRun : Run space requests s) (ms : Nat) :
      Run space requests { s with table := s.table.advance ms }
  | call {s : Topups} {i : Nat} {c : Call} {next : Result c.Answer → Program Unit}
      {answer : Result c.Answer} {table : KeyTable} (hRun : Run space requests s)
      (hNext : s.rest i = .call c next) (hEffect : Effect space s.table ⟨c, answer⟩ table) :
      Run space requests ⟨table, Function.update s.rest i (next answer),
        s.log ++ [⟨s.table.now, i, ⟨c, answer⟩⟩]⟩

/-- The claim that stands for a key: nobody has claimed the key anew or given it back since. -/
def Stands (key : String) (log : List Entry) (x : Entry) : Prop :=
  ∃ before after, log = before ++ x :: after ∧ x.Claims key ∧
    ∀ y ∈ after, ¬ y.Claims key ∧ ¬ y.Releases key

/-- A request has given the key back when its own claim had already come to its end. -/
def Late (space : KeySpace) (key : String) (log : List Entry) : Prop :=
  ∃ x ∈ log, ∃ y ∈ log, x.Claims key ∧ y.Releases key ∧ x.request = y.request ∧
    x.time + space.lifetime ≤ y.time

section Log

variable {space : KeySpace} {key : String} {log : List Entry} {x y : Entry} {i : Nat}

theorem ofRequest_append (log' : List Entry) :
    ofRequest i (log ++ log') = ofRequest i log ++ ofRequest i log' := by
  simp [ofRequest]

theorem ofRequest_cons :
    ofRequest i (x :: log) =
      if x.request = i then x.exchange :: ofRequest i log else ofRequest i log := by
  unfold ofRequest
  by_cases hOwn : x.request = i <;> simp [hOwn]

theorem mem_ofRequest {e : Exchange} :
    e ∈ ofRequest i log ↔ ∃ x ∈ log, x.request = i ∧ x.exchange = e := by
  simp [ofRequest, and_assoc]

theorem stands_concat :
    Stands key (log ++ [y]) x ↔
      x = y ∧ y.Claims key ∨ Stands key log x ∧ ¬ y.Claims key ∧ ¬ y.Releases key := by
  constructor
  · rintro ⟨before, after, hLog, hClaims, hSince⟩
    rcases List.eq_nil_or_concat after with rfl | ⟨after, z, rfl⟩
    · obtain ⟨-, hLast⟩ := List.append_inj' hLog rfl
      obtain rfl := (List.cons.inj hLast).1
      exact Or.inl ⟨rfl, hClaims⟩
    · rw [List.concat_eq_append, ← List.cons_append, ← List.append_assoc] at hLog
      obtain ⟨rfl, hLast⟩ := List.append_inj' hLog rfl
      obtain rfl := (List.cons.inj hLast).1
      refine Or.inr ⟨⟨before, after, rfl, hClaims, fun z hMem => hSince z (by simp [hMem])⟩, ?_⟩
      exact hSince y (by simp)
  · rintro (⟨rfl, hClaims⟩ | ⟨⟨before, after, rfl, hClaims, hSince⟩, hOther⟩)
    · exact ⟨log, [], rfl, hClaims, by simp⟩
    · refine ⟨before, after ++ [y], by simp, hClaims, fun z hMem => ?_⟩
      rcases List.mem_append.mp hMem with hMem | hMem
      · exact hSince z hMem
      · obtain rfl := List.mem_singleton.mp hMem
        exact hOther

/-- No two claims stand for one key. -/
theorem Stands.unique (hX : Stands key log x) (hY : Stands key log y) : x = y := by
  induction log using List.reverseRecOn with
  | nil =>
    obtain ⟨before, after, hLog, -⟩ := hX
    simp at hLog
  | append_singleton log z ih =>
    rw [stands_concat] at hX hY
    rcases hX with ⟨rfl, hClaims⟩ | ⟨hX, hOther, -⟩
    · rcases hY with ⟨rfl, -⟩ | ⟨-, hNot, -⟩
      · rfl
      · exact absurd hClaims hNot
    · rcases hY with ⟨rfl, hClaims⟩ | ⟨hY, -⟩
      · exact absurd hClaims hOther
      · exact ih hX hY

theorem Late.mono {log' : List Entry} (hLate : Late space key log) (hSub : log ⊆ log') :
    Late space key log' := by
  obtain ⟨x, hX, y, hY, hRest⟩ := hLate
  exact ⟨x, hSub hX, y, hSub hY, hRest⟩

end Log

namespace Topups

variable {space : KeySpace} {requests : Nat → Option Topup} {s : Topups} {key : String}
  {x y : Entry} {before between after : List Entry}

-- ---------------------------------------------------------------------------
-- What each request has asked
-- ---------------------------------------------------------------------------

theorem Run.asked (hRun : Run space requests s) (i : Nat) :
    Asked (topup (requests i)) (ofRequest i s.log) (s.rest i) := by
  induction hRun with
  | start => exact Asked.nothing
  | wait hRun ms ih => exact ih
  | @call s j c next answer table hRun hNext hEffect ih =>
    rw [ofRequest_append, ofRequest_cons]
    by_cases hSame : j = i
    · subst hSame
      rw [if_pos rfl]
      simp only [Function.update_self]
      rw [hNext] at ih
      exact ih.next answer
    · rw [if_neg hSame]
      simp only [Function.update_of_ne (Ne.symm hSame)]
      simpa [ofRequest] using ih

/-- The calls of each request are the beginning of what the protocol of a top-up allows. -/
theorem Run.protocol (hRun : Run space requests s) {i : Nat} {e : Exchange}
    (hMem : e ∈ ofRequest i s.log) :
    ∃ (r : Topup) (rest : List Exchange) (result : Result Unit),
      r.Protocol (ofRequest i s.log ++ rest) result := by
  have hAsked := hRun.asked i
  -- whatever is left is brought to its end by collaborators that only fail
  let refusing : Collaborators Unit := fun c s => (.error .cancelled, s)
  cases hKeyed : keyed (requests i) with
  | none =>
    rw [topup_of_keyed_eq_none hKeyed] at hAsked
    have hNothing : (Program.fail .emptyWallet : Program Unit).Meets fun log _ => log = [] :=
      Meets.done rfl
    have hNone := (hNothing.after hAsked) Unit refusing ()
    rw [(List.append_eq_nil_iff.mp hNone).1] at hMem
    cases hMem
  | some r => exact ⟨r, _, _, ((meets_topup hKeyed).after hAsked) Unit refusing ()⟩

/-- A request that gives a key back has just claimed it, has done nothing else, and does nothing more. -/
theorem Run.release_alone (hRun : Run space requests s) (hLog : s.log = before ++ x :: after)
    (hRelease : x.Releases key) :
    ofRequest x.request before = [⟨.claim key, .ok false⟩] ∧ ofRequest x.request after = [] := by
  have hOwn : ofRequest x.request s.log =
      ofRequest x.request before ++ x.exchange :: ofRequest x.request after := by
    rw [hLog, ofRequest_append, ofRequest_cons, if_pos rfl]
  have hMem : x.exchange ∈ ofRequest x.request s.log := by rw [hOwn]; simp
  obtain ⟨r, rest, result, hProtocol⟩ := hRun.protocol hMem
  rw [hOwn, List.append_assoc, List.cons_append] at hProtocol
  obtain ⟨rfl, -, hBefore, hAfter⟩ := hProtocol.release_after_claim rfl hRelease
  exact ⟨hBefore, (List.append_eq_nil_iff.mp hAfter).1⟩

/-- The claim of a request that gives the key back. -/
theorem Run.claim_of_release (hRun : Run space requests s) (hLog : s.log = before ++ x :: after)
    (hRelease : x.Releases key) :
    ∃ y ∈ before, y.Claims key ∧ y.request = x.request ∧
      ∀ z ∈ before, z.Releases key → z.request ≠ y.request := by
  have hOwn := (hRun.release_alone hLog hRelease).1
  have hMem : (⟨.claim key, .ok false⟩ : Exchange) ∈ ofRequest x.request before := by
    rw [hOwn]
    exact List.mem_singleton.mpr rfl
  obtain ⟨y, hY, hRequest, hClaims⟩ := mem_ofRequest.mp hMem
  refine ⟨y, hY, hClaims, hRequest, fun z hZ hZRelease hSame => ?_⟩
  have hOther : z.exchange ∈ ofRequest x.request before :=
    mem_ofRequest.mpr ⟨z, hZ, hSame.trans hRequest, rfl⟩
  rw [hOwn, List.mem_singleton] at hOther
  rw [Entry.Releases, hOther] at hZRelease
  cases hZRelease

/-- A request that has changed a balance never gives a key back. -/
theorem Run.keeps_applied (hRun : Run space requests s) (hX : x ∈ s.log) (hApplies : x.Applies)
    (hY : y ∈ s.log) (hRelease : y.Releases key) : y.request ≠ x.request := by
  intro hSame
  obtain ⟨before, after, hLog⟩ := List.append_of_mem hY
  obtain ⟨hBefore, hAfter⟩ := hRun.release_alone hLog hRelease
  obtain ⟨w, amount, hAdd⟩ := hApplies
  have hMem : x.exchange ∈ ofRequest y.request s.log := mem_ofRequest.mpr ⟨x, hX, hSame.symm, rfl⟩
  rw [hLog, ofRequest_append, ofRequest_cons, if_pos rfl, hBefore, hAfter, hAdd] at hMem
  simp only [List.mem_append, List.mem_singleton] at hMem
  -- the calls of the request are a claim and a release, and the update is neither
  rcases hMem with hClaim | hOther
  · cases congrArg Exchange.call hClaim
  · rw [Entry.Releases, ← hOther] at hRelease
    cases hRelease

/-- Up to each call of a run there is a run, at the end of which the call takes effect. -/
theorem Run.before_call (hRun : Run space requests s) (hLog : s.log = before ++ x :: after) :
    ∃ s', Run space requests s' ∧ s'.log = before ∧ s'.table.now = x.time ∧
      ∃ table, Effect space s'.table x.exchange table := by
  induction hRun generalizing after with
  | start => simp at hLog
  | wait hRun ms ih => exact ih hLog
  | @call s i c next answer table hRun hNext hEffect ih =>
    rcases List.eq_nil_or_concat after with rfl | ⟨after, z, rfl⟩
    · obtain ⟨hBefore, hLast⟩ := List.append_inj' hLog rfl
      obtain rfl := (List.cons.inj hLast).1
      exact ⟨s, hRun, hBefore, rfl, table, hEffect⟩
    · rw [List.concat_eq_append, ← List.cons_append, ← List.append_assoc] at hLog
      exact ih (List.append_inj' hLog rfl).1

-- ---------------------------------------------------------------------------
-- The claims that stand
-- ---------------------------------------------------------------------------

/-- A call that neither claims a key nor gives it back leaves its name as it is. -/
theorem get?_of_other {t t' : KeyTable} {e : Exchange} (hEffect : Effect space t e t')
    (hClaim : e ≠ ⟨.claim key, .ok false⟩) (hRelease : e.call ≠ .release key) :
    t'.ends.get? (space.name key) = t.ends.get? (space.name key) := by
  obtain ⟨c, answer⟩ := e
  cases c with
  | claim key' =>
    obtain ⟨hAnswer, rfl⟩ := effect_claim.mp hEffect
    cases hSet : t.isSet (space.name key') with
    | true => simp [KeyTable.set, hSet]
    | false =>
      have hOther : space.name key' ≠ space.name key := by
        intro hName
        obtain rfl := KeySpace.name_inj.mp hName
        rw [hSet] at hAnswer
        subst hAnswer
        exact hClaim rfl
      simp [KeyTable.set, hSet, Table.get?_put_of_ne _ _ hOther]
  | release key' =>
    obtain ⟨-, rfl⟩ := effect_release.mp hEffect
    have hOther : space.name key ≠ space.name key' := by
      intro hName
      obtain rfl := KeySpace.name_inj.mp hName
      exact hRelease rfl
    show (t.ends.erase (space.name key')).get? (space.name key) = _
    rw [Table.get?_erase, if_neg hOther]
  | begin | commit | rollback | lock _ _ | addWithin _ _ | add _ _ | insert _ | get _ | list _
  | newId | readClock =>
    cases hEffect with
    | keys hKeys => cases hKeys
    | others => rfl

/-- The key server has the claims that stand, each with its end. -/
theorem Run.get?_name (hRun : Run space requests s) {ends : Instant} :
    s.table.ends.get? (space.name key) = some ends ↔
      ∃ x, Stands key s.log x ∧ ends = x.time + space.lifetime := by
  induction hRun generalizing ends with
  | start =>
    constructor
    · intro hGet
      cases hGet
    · rintro ⟨x, ⟨before, after, hLog, -⟩, -⟩
      simp at hLog
  | wait hRun ms ih => exact ih
  | @call s i c next answer table hRun hNext hEffect ih =>
    simp only [stands_concat]
    by_cases hClaims : (⟨c, answer⟩ : Exchange) = ⟨.claim key, .ok false⟩
    · -- the claim takes the place of whatever stood there
      cases hClaims
      obtain ⟨hFree, rfl⟩ := effect_claim.mp hEffect
      have hFree : s.table.isSet (space.name key) = false := (Except.ok.inj hFree).symm
      have hPut : (s.table.set (space.name key) space.seconds).2.ends.get? (space.name key) =
          some (s.table.now + space.lifetime) := by
        simp [KeyTable.set, hFree, KeySpace.lifetime]
      rw [hPut]
      simp [Entry.Claims, eq_comm]
    · by_cases hRelease : c = .release key
      · subst hRelease
        obtain ⟨-, rfl⟩ := effect_release.mp hEffect
        have hGone : (s.table.delete (space.name key)).2.ends.get? (space.name key) = none := by
          show (s.table.ends.erase (space.name key)).get? (space.name key) = none
          rw [Table.get?_erase, if_pos rfl]
        rw [hGone]
        simp [Entry.Claims, Entry.Releases]
      · rw [get?_of_other hEffect hClaims hRelease, ih]
        simp [Entry.Claims, Entry.Releases, hClaims, hRelease]

/-- While a claim stands and lasts, the key is in use. -/
theorem Run.claim_inUse (hRun : Run space requests s) {answer : Result Bool} {table : KeyTable}
    (hStands : Stands key s.log x) (hLive : s.table.now < x.time + space.lifetime)
    (hEffect : Effect space s.table ⟨.claim key, answer⟩ table) : answer = .ok true := by
  have hGet : s.table.ends.get? (space.name key) = some (x.time + space.lifetime) :=
    hRun.get?_name.mpr ⟨x, hStands, rfl⟩
  have hSet : s.table.isSet (space.name key) = true := by
    unfold KeyTable.isSet
    rw [hGet]
    exact decide_eq_true hLive
  rw [(effect_claim.mp hEffect).1, hSet]

/-- Without a late release, a live claim stands until its request gives the key back. -/
theorem Run.stands (hRun : Run space requests s) (hTimely : ¬ Late space key s.log)
    (hMem : x ∈ s.log) (hClaims : x.Claims key) (hLive : s.table.now < x.time + space.lifetime)
    (hKept : ∀ y ∈ s.log, y.Releases key → y.request ≠ x.request) : Stands key s.log x := by
  induction hRun generalizing x with
  | start => cases hMem
  | @wait s hRun ms ih =>
    have hBefore : s.table.now < x.time + space.lifetime :=
      Nat.lt_of_le_of_lt (Nat.le_add_right _ ms) hLive
    exact ih hTimely hMem hClaims hBefore hKept
  | @call s i c next answer table hRun hNext hEffect ih =>
    have hTimely' : ¬ Late space key s.log := fun hLate =>
      hTimely (hLate.mono (List.subset_append_left _ _))
    rw [hEffect.now_eq] at hLive
    rw [stands_concat]
    rcases List.mem_append.mp hMem with hMem | hLast
    · have hStands := ih hTimely' hMem hClaims hLive fun y hY => hKept y (by simp [hY])
      refine Or.inr ⟨hStands, ?_, ?_⟩
      · -- a live claim that stands lets nobody claim the key
        intro hAgain
        cases hAgain
        cases hRun.claim_inUse hStands hLive hEffect
      · -- a release in time finds the releaser's own claim in that place
        intro hRelease
        have hRun' := hRun.call hNext hEffect
        obtain ⟨y, hY, hYClaims, hRequest, hYKept⟩ := hRun'.claim_of_release rfl hRelease
        have hYLive : s.table.now < y.time + space.lifetime := by
          by_contra hEnded
          refine hTimely ⟨y, by simp [hY], _, List.mem_append_right _ (List.mem_singleton.mpr rfl),
            hYClaims, hRelease, hRequest, Nat.not_lt.mp hEnded⟩
        have hSame : y = x := (ih hTimely' hY hYClaims hYLive hYKept).unique hStands
        rw [hSame] at hRequest
        exact hKept _ (List.mem_append_right _ (List.mem_singleton.mpr rfl)) hRelease hRequest.symm
    · obtain rfl := List.mem_singleton.mp hLast
      exact Or.inl ⟨rfl, hClaims⟩

/-- Without a late release so far, a release takes away the releaser's own claim or none. -/
theorem Run.owner_eq_or_late (hRun : Run space requests s) (hLog : s.log = before ++ x :: after)
    (hRelease : x.Releases key) (hStands : Stands key before y)
    (hLive : x.time < y.time + space.lifetime) :
    y.request = x.request ∨ Late space key (before ++ [x]) := by
  obtain ⟨s', hRun', rfl, hNow, -⟩ := hRun.before_call hLog
  obtain ⟨z, hZ, hZClaims, hRequest, hZKept⟩ := hRun.claim_of_release hLog hRelease
  by_cases hLate : Late space key (s'.log ++ [x])
  · exact Or.inr hLate
  · left
    have hTimely : ¬ Late space key s'.log := fun hBefore =>
      hLate (hBefore.mono (List.subset_append_left _ _))
    have hZLive : s'.table.now < z.time + space.lifetime := by
      by_contra hEnded
      refine hLate ⟨z, by simp [hZ], x, by simp, hZClaims, hRelease, hRequest, ?_⟩
      rw [← hNow]
      exact Nat.not_lt.mp hEnded
    obtain rfl := (hRun'.stands hTimely hZ hZClaims hZLive hZKept).unique hStands
    exact hRequest

/-- Without a late release so far, a key whose claim has led to a change of a balance is claimed again
only after the end of that claim. -/
theorem Run.apart_or_late (hRun : Run space requests s)
    (hLog : s.log = before ++ x :: between ++ y :: after) (hX : x.Claims key) (hY : y.Claims key)
    (hApplied : ∃ z ∈ s.log, z.request = x.request ∧ z.Applies) :
    x.time + space.lifetime ≤ y.time ∨ Late space key (before ++ x :: between) := by
  obtain ⟨s', hRun', hLog', hNow, table, hEffect⟩ := hRun.before_call hLog
  obtain ⟨z, hZ, hRequest, hApplies⟩ := hApplied
  by_cases hLate : Late space key (before ++ x :: between)
  · exact Or.inr hLate
  · left
    by_contra hEarly
    have hLive : s'.table.now < x.time + space.lifetime := by
      rw [hNow]
      exact Nat.not_le.mp hEarly
    have hKept : ∀ y ∈ s'.log, y.Releases key → y.request ≠ x.request := by
      intro y' hY' hRelease
      have hMem : y' ∈ s.log := by
        rw [hLog, ← hLog']
        exact List.mem_append_left _ hY'
      rw [← hRequest]
      exact hRun.keeps_applied hZ hApplies hMem hRelease
    have hStands : Stands key s'.log x :=
      hRun'.stands (by rwa [hLog']) (by rw [hLog']; simp) hX hLive hKept
    rw [hY] at hEffect
    cases hRun'.claim_inUse hStands hLive hEffect

/-- In every run of top-ups over one key server: a release takes away the releaser's own claim or none,
unless it or a release before it came late; and a key whose claim has led to a change of a balance is
claimed again only after the end of that claim, unless there was a late release before. -/
theorem Run.undisturbed_or_late (hRun : Run space requests s) (key : String) :
    (∀ before x after y, s.log = before ++ x :: after → x.Releases key →
      Stands key before y → x.time < y.time + space.lifetime →
        y.request = x.request ∨ Late space key (before ++ [x])) ∧
    (∀ before x between y after, s.log = before ++ x :: between ++ y :: after →
      x.Claims key → y.Claims key → (∃ z ∈ s.log, z.request = x.request ∧ z.Applies) →
        x.time + space.lifetime ≤ y.time ∨ Late space key (before ++ x :: between)) := by
  constructor
  · intro before x after y hLog hRelease hStands hLive
    exact hRun.owner_eq_or_late hLog hRelease hStands hLive
  · intro before x between y after hLog hX hY hApplied
    exact hRun.apart_or_late hLog hX hY hApplied

-- ---------------------------------------------------------------------------
-- A late release
-- ---------------------------------------------------------------------------

variable {r : Topup} {i : Nat} {w : WalletId} {e : LedgerError}

/-- A request claims its key. -/
theorem Run.claiming (hRun : Run space requests s) (hRest : s.rest i = topup (requests i))
    (hKeyed : keyed (requests i) = some r) (hFree : s.table.isSet (space.name r.key) = false) :
    Run space requests ⟨(s.table.set (space.name r.key) space.seconds).2,
      Function.update s.rest i (applyTopup r), s.log ++ [⟨s.table.now, i, r.freshClaim⟩]⟩ := by
  rw [topup_of_keyed hKeyed] at hRest
  have hEffect : Effect space s.table r.freshClaim
      (s.table.set (space.name r.key) space.seconds).2 :=
    effect_claim.mpr ⟨congrArg Except.ok hFree.symm, rfl⟩
  exact hRun.call hRest hEffect

/-- A request that has claimed its key and fails its checks gives the key back. -/
theorem Run.releasing (hRun : Run space requests s) (hRest : s.rest i = applyTopup r)
    (hRefused : r.Refused e) :
    Run space requests ⟨(s.table.delete (space.name r.key)).2,
      Function.update s.rest i (Program.fail e),
      s.log ++ [⟨s.table.now, i, ⟨.release r.key, .ok ()⟩⟩]⟩ := by
  rw [applyTopup, Topup.check_eq_error_iff.mpr hRefused] at hRest
  exact hRun.call hRest (effect_release.mpr ⟨rfl, rfl⟩)

/-- A request that has claimed its key and passes its checks adds its amount. -/
theorem Run.adding (hRun : Run space requests s) (hRest : s.rest i = applyTopup r)
    (hValid : r.Valid w) :
    Run space requests ⟨s.table, Function.update s.rest i (Program.done (.ok ())),
      s.log ++ [⟨s.table.now, i, ⟨.add w r.amount, .ok ()⟩⟩]⟩ := by
  rw [applyTopup, Topup.check_eq_ok_iff.mpr hValid] at hRest
  exact hRun.call hRest (Effect.others rfl _)

theorem isSet_delete (t : KeyTable) (name : String) : (t.delete name).2.isSet name = false := by
  have hGone : (t.ends.erase name).get? name = none := by rw [Table.get?_erase, if_pos rfl]
  simp [KeyTable.isSet, KeyTable.delete, hGone]

/-- A name is set no longer once its time is over. -/
theorem isSet_of_ended {t : KeyTable} {name : String} (hFree : t.isSet name = false)
    (seconds : Nat) : ((t.set name seconds).2.advance (seconds * 1000)).isSet name = false := by
  have hSet : (t.set name seconds).2 = { t with ends := t.ends.put name (t.now + seconds * 1000) } := by
    simp [KeyTable.set, hFree]
  rw [hSet]
  simp [KeyTable.isSet, KeyTable.advance]

/-- Three requests, and nobody else. -/
def three (r₀ r₁ r₂ : Topup) : Nat → Option Topup
  | 0 => some r₀
  | 1 => some r₁
  | 2 => some r₂
  | _ => none

/-- A refused request whose claim has come to its end gives back the claim of another request, and a
third one uses the key at the same instant. -/
def lateRelease (space : KeySpace) (r₀ r₁ r₂ : Topup) (w₁ w₂ : WalletId) : List Entry :=
  [⟨0, 0, r₀.freshClaim⟩,
    ⟨space.lifetime, 1, r₁.freshClaim⟩,
    ⟨space.lifetime, 1, ⟨.add w₁ r₁.amount, .ok ()⟩⟩,
    ⟨space.lifetime, 0, ⟨.release r₀.key, .ok ()⟩⟩,
    ⟨space.lifetime, 2, r₂.freshClaim⟩,
    ⟨space.lifetime, 2, ⟨.add w₂ r₂.amount, .ok ()⟩⟩]

theorem run_lateRelease {r₀ r₁ r₂ : Topup} {w₁ w₂ : WalletId}
    (hKey : isBlankText r₀.idempotencyKey = false) (hKey₁ : r₁.key = r₀.key)
    (hKey₂ : r₂.key = r₀.key) (hRefused : r₀.Refused e) (hValid₁ : r₁.Valid w₁)
    (hValid₂ : r₂.Valid w₂) :
    ∃ s, Run space (three r₀ r₁ r₂) s ∧ s.log = lateRelease space r₀ r₁ r₂ w₁ w₂ := by
  have hKeyed : ∀ r : Topup, r.key = r₀.key → keyed (some r) = some r := by
    intro r hSame
    have hThere : isBlankText r.idempotencyKey = false := by
      rw [← isEmpty_trim, ← Topup.key, hSame, Topup.key, isEmpty_trim, hKey]
    simp [keyed, Option.filter, hThere]
  have hStart : Run space (three r₀ r₁ r₂) _ := Run.start
  have hClaim := hStart.claiming (i := 0) rfl (hKeyed r₀ rfl) rfl
  have hWait := hClaim.wait (space.seconds * 1000)
  have hClaim₁ := hWait.claiming (i := 1) (r := r₁) rfl (hKeyed r₁ hKey₁)
    (by rw [hKey₁]; exact isSet_of_ended rfl _)
  have hAdd₁ := hClaim₁.adding (i := 1) rfl hValid₁
  have hRelease := hAdd₁.releasing (i := 0) (r := r₀) rfl hRefused
  have hClaim₂ := hRelease.claiming (i := 2) (r := r₂) rfl (hKeyed r₂ hKey₂)
    (by rw [hKey₂]; exact isSet_delete _ _)
  have hAdd₂ := hClaim₂.adding (i := 2) rfl hValid₂
  refine ⟨_, hAdd₂, ?_⟩
  simp [lateRelease, KeySpace.lifetime]

/-- The keys of a server on which claims last for a second. -/
def briefly : KeySpace := ⟨"idempotency:", 1000⟩

/-- A request of a user to add an amount to a wallet, under the key `key`. -/
def request (amount : Nat) : Topup where
  walletId := "00000000000000000000000001"
  userId := "00000000-0000-0000-0000-000000000001"
  amount := Crowd.coins amount
  idempotencyKey := "key"

/-- A key comes free that has been used. The first request is refused and gives back the claim of the
second one, which has added its amount; the third one claims the key and adds its amount, at an instant
at which the claim of the second one would still last. The release came late. -/
theorem used_key_comes_free :
    ∃ key s, Run briefly (three (request 0) (request 5) (request 7)) s ∧
      (∃ before x after y, s.log = before ++ x :: after ∧ x.Releases key ∧
        Stands key before y ∧ x.time < y.time + briefly.lifetime ∧ y.request ≠ x.request) ∧
      (∃ before x between y after, s.log = before ++ x :: between ++ y :: after ∧
        x.Claims key ∧ y.Claims key ∧ y.time < x.time + briefly.lifetime ∧
        (∃ z ∈ s.log, z.request = x.request ∧ z.Applies) ∧
        (∃ z ∈ s.log, z.request = y.request ∧ z.Applies) ∧
        Late briefly key (before ++ x :: between)) := by
  have hRefused : (request 0).Refused .invalidAmount :=
    Topup.Refused.noAmount (by decide) (by decide) (by decide)
  have hWallet : WalletId.parseTrimmed? (request 0).walletId = some ⟨1, by decide⟩ := by decide
  have hUser : ∃ user, UserId.parseTrimmed? (request 0).userId = some user :=
    Option.isSome_iff_exists.mp (by decide)
  have hValid₁ : (request 5).Valid ⟨1, by decide⟩ := ⟨hWallet, hUser, by decide⟩
  have hValid₂ : (request 7).Valid ⟨1, by decide⟩ := ⟨hWallet, hUser, by decide⟩
  have hRuns : ∃ s, Run briefly (three (request 0) (request 5) (request 7)) s ∧
      s.log = lateRelease briefly (request 0) (request 5) (request 7) ⟨1, by decide⟩ ⟨1, by decide⟩ :=
    run_lateRelease (by decide) rfl rfl hRefused hValid₁ hValid₂
  obtain ⟨s, hRun, hLog⟩ := hRuns
  have hApplied₁ : ∃ z ∈ s.log, z.request = 1 ∧ z.Applies := by
    rw [hLog]
    exact ⟨_, List.mem_of_getElem? (i := 2) rfl, rfl, _, _, rfl⟩
  have hApplied₂ : ∃ z ∈ s.log, z.request = 2 ∧ z.Applies := by
    rw [hLog]
    exact ⟨_, List.mem_of_getElem? (i := 5) rfl, rfl, _, _, rfl⟩
  have hSecond := (hRun.undisturbed_or_late (request 0).key).2 [_] _ [_, _] _ [_] hLog rfl rfl
    hApplied₁
  refine ⟨(request 0).key, s, hRun, ⟨[_, _, _], _, [_, _], ⟨briefly.lifetime, 1, (request 5).freshClaim⟩,
    hLog, rfl, ⟨[_], [_], rfl, rfl, ?_⟩, by decide, by decide⟩,
    ⟨[_], _, [_, _], _, [_], hLog, rfl, rfl, by decide, hApplied₁, hApplied₂, ?_⟩⟩
  · intro y hMem
    obtain rfl := List.mem_singleton.mp hMem
    exact ⟨nofun, nofun⟩
  · rcases hSecond with hApart | hLate
    · exact absurd hApart (by decide)
    · exact hLate

end Topups

end Purse.Remote
