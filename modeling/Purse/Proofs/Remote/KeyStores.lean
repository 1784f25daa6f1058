import Purse.Proofs.Keys.Claims
import Purse.Proofs.Remote.SharedKeys

/-!
# The key stores agree

The keys in memory and the keys on a server are asked the same things, and any time passes in between.
Each keeps instants at which claims end, and keeps those that have ended for a while, in its own way
and by its own clock. What counts is how long each claim has still to go, and by that both are the same
machine: a claim finds out whether the key has a live claim and makes one for the whole lifetime if
not, a release ends it, and all claims run down as time passes.

The one thing in which they differ is the lifetime. In memory it is the time that is asked for, and on
a server, which counts in seconds, the whole seconds of it. The settings ask for whole seconds, and then
no history tells the stores apart. Any other time is told from its whole seconds by asking for a key
again in between.

## Definitions

* `KeyStep`: what happens to a key store.
* `Leases`: how long the claim on each key has still to go; `Leases.answer` and `Leases.next` are the
  machine that both stores are.
* `history`: what a key store answers.
* `inMemory`, `onServer`: the keys in memory and the keys on a server.
* `InTime`: no claim is made so late that its end would be no instant.
* `leases`: how long the claims have still to go, by their ends and a clock.
* `askedAgain`: a key is asked for twice.

## Results

* `exists_inMemory`, `exists_onServer`: each store does as its leases do, step by step.
* `leases_purge`: a purge takes nothing away from a lease.
* `history_inMemory`, `history_onServer`: and so it answers as they do, over any history.
* `KeySpace.lifetime_eq`: the lifetime on a server is what is asked for, up to a whole second.
* `key_stores_follow_leases`: how the answers of both stores go, and when they are the same.
* `configured_stores_agree`: the stores that the settings make answer alike.
* `told_apart`: stores that are asked for a time between seconds do not.
-/

namespace Purse.Remote

/-- What happens to a key store: it is asked for a claim or a release, or time passes. -/
inductive KeyStep where
  | claim (key : String)
  | release (key : String)
  | wait (ms : Nat)

-- ---------------------------------------------------------------------------
-- Leases
-- ---------------------------------------------------------------------------

/-- How long the claim on each key has still to go, in milliseconds. A claim is live while it has any
time to go. -/
abbrev Leases := String → Nat

namespace Leases

/-- No live claims. -/
def none : Leases := fun _ => 0

/-- What a step is answered: a claim tells whether there is a live one. -/
def answer (left : Leases) : KeyStep → List Exchange
  | .claim key => [⟨.claim key, .ok (decide (0 < left key))⟩]
  | .release key => [⟨.release key, .ok ()⟩]
  | .wait _ => []

/-- What a step does. A key without a live claim is claimed for the lifetime, and a live claim is not
made to last any longer. -/
def next (lifetime : Nat) (left : Leases) : KeyStep → Leases
  | .claim key => fun x => if x = key ∧ left key = 0 then lifetime else left x
  | .release key => fun x => if x = key then 0 else left x
  | .wait ms => fun x => left x - ms

theorem next_claim (lifetime : Nat) (left : Leases) (key x : String) :
    left.next lifetime (.claim key) x =
      if x = key ∧ left key = 0 then lifetime else left x := rfl

/-- What the steps are answered, one after another. -/
def history (lifetime : Nat) : List KeyStep → Leases → List Exchange
  | [], _ => []
  | e :: steps, left => left.answer e ++ history lifetime steps (left.next lifetime e)

end Leases

-- ---------------------------------------------------------------------------
-- The two stores
-- ---------------------------------------------------------------------------

/-- What a key store answers to the steps, one after another. -/
def history {σ : Type} (step : KeyStep → σ → Except Fault (List Exchange × σ)) :
    List KeyStep → σ → Except Fault (List Exchange)
  | [], _ => .ok []
  | e :: steps, s => do
    let (log, s) ← step e s
    let rest ← history step steps s
    return log ++ rest

/-- The keys in memory, with the clock they go by. -/
def inMemory : KeyStep → Instant × Keys → Except Fault (List Exchange × Instant × Keys)
  | .claim key, (now, k) => do
    let (inUse, k) ← k.claim now key
    return ([⟨.claim key, .ok inUse⟩], now, k)
  | .release key, (now, k) => .ok ([⟨.release key, .ok ()⟩], now, k.release key)
  | .wait ms, (now, k) => .ok ([], now + ms, k)

/-- The keys on a server, as its client sees them. -/
def onServer (space : KeySpace) (others : Collaborators KeyTable) (e : KeyStep) (t : KeyTable) :
    Except Fault (List Exchange × KeyTable) :=
  let client := overKeyServer space KeyTable.answer others
  match e with
  | .claim key => .ok ([⟨.claim key, (client (.claim key) t).1⟩], (client (.claim key) t).2)
  | .release key => .ok ([⟨.release key, (client (.release key) t).1⟩], (client (.release key) t).2)
  | .wait ms => .ok ([], t.advance ms)

/-- Every claim is made early enough for its end to be an instant. -/
def InTime (lifetime : Nat) : List KeyStep → Instant → Prop
  | [], _ => True
  | .claim _ :: steps, now => now + lifetime < Instant.limit ∧ InTime lifetime steps now
  | .release _ :: steps, now => InTime lifetime steps now
  | .wait ms :: steps, now => InTime lifetime steps (now + ms)

/-- A store that does as its leases do, step by step, does so over a whole history. What it takes for
that may have to do with the steps to come. -/
theorem history_eq {σ : Type} {step : KeyStep → σ → Except Fault (List Exchange × σ)}
    {lifetime : Nat} (left : σ → Leases) (Fit : List KeyStep → σ → Prop)
    (hStep : ∀ e steps s, Fit (e :: steps) s → ∃ s', step e s = .ok ((left s).answer e, s') ∧
      left s' = (left s).next lifetime e ∧ Fit steps s')
    (steps : List KeyStep) (s : σ) (hFit : Fit steps s) :
    history step steps s = .ok (Leases.history lifetime steps (left s)) := by
  induction steps generalizing s with
  | nil => rfl
  | cons e steps ih =>
    obtain ⟨s', hDone, hLeft, hFit'⟩ := hStep e steps s hFit
    have hRest : history step steps s' =
        .ok (Leases.history lifetime steps ((left s).next lifetime e)) := hLeft ▸ ih s' hFit'
    rw [history, hDone]
    show (history step steps s' >>= fun rest => Except.ok ((left s).answer e ++ rest)) = _
    rw [hRest]
    rfl

-- ---------------------------------------------------------------------------
-- Ends and leases
-- ---------------------------------------------------------------------------

/-- How long claims with these ends have still to go. One that has ended has as little to go as one
that was never made. -/
def leases {κ : Type} [DecidableEq κ] (ends : Table κ Instant) (named : String → κ)
    (now : Instant) : Leases :=
  fun key => (ends.get? (named key)).getD 0 - now

section Ends

variable {κ : Type} [DecidableEq κ] {ends : Table κ Instant} {named : String → κ}
  {now : Instant} {lifetime : Nat} {key : String}

/-- A claim has time to go before its end. -/
theorem decide_leases_pos : decide (0 < leases ends named now key) =
    match ends.get? (named key) with
    | some expiry => decide (now < expiry)
    | none => false := by
  unfold leases
  cases ends.get? (named key) with
  | none => simp
  | some expiry => simp only [Option.getD_some, Nat.sub_pos_iff_lt]

theorem leases_empty : leases (Table.empty : Table κ Instant) named now = Leases.none := by
  funext x
  simp [leases, Leases.none, Table.get?_empty]

theorem leases_claim_live (hLive : 0 < leases ends named now key) :
    leases ends named now = (leases ends named now).next lifetime (.claim key) := by
  funext x
  have hNot : ¬ (x = key ∧ leases ends named now key = 0) := fun hFree => by omega
  exact (if_neg hNot).symm

theorem leases_put (hNamed : named.Injective) (hFree : ¬ 0 < leases ends named now key) :
    leases (ends.put (named key) (now + lifetime)) named now =
      (leases ends named now).next lifetime (.claim key) := by
  funext x
  have hZero : leases ends named now key = 0 := by omega
  by_cases hKey : x = key
  · subst hKey
    rw [Leases.next_claim, if_pos ⟨rfl, hZero⟩]
    simp [leases]
  · have hOther : named key ≠ named x := fun hSame => hKey (hNamed hSame).symm
    rw [Leases.next_claim, if_neg fun hBoth => hKey hBoth.1]
    simp [leases, Table.get?_put, hOther]

theorem leases_erase (hNamed : named.Injective) :
    leases (ends.erase (named key)) named now =
      (leases ends named now).next lifetime (.release key) := by
  funext x
  simp only [leases, Leases.next, Table.get?_erase, hNamed.eq_iff]
  split <;> simp

theorem leases_wait (ms : Nat) : leases ends named (now + ms) =
    (leases ends named now).next lifetime (.wait ms) := by
  funext x
  exact (Nat.sub_sub _ _ _).symm

end Ends

-- ---------------------------------------------------------------------------
-- Both stores go by their leases
-- ---------------------------------------------------------------------------

theorem isLive_eq (k : Keys) (now : Instant) (key : String) :
    k.isLive now key = decide (0 < leases k.claims id now key) := by
  rw [decide_leases_pos]
  rfl

theorem isSet_eq (t : KeyTable) (space : KeySpace) (key : String) :
    t.isSet (space.name key) = decide (0 < leases t.ends space.name t.now key) := by
  rw [decide_leases_pos]
  rfl

/-- The keys in memory do as their leases do, as long as each claim ends at an instant. -/
theorem exists_inMemory (lifetime : Nat) (e : KeyStep) (steps : List KeyStep)
    (s : Instant × Keys)
    (hFit : s.2.lifetime = lifetime ∧ InTime lifetime (e :: steps) s.1) :
    ∃ s', inMemory e s = .ok ((leases s.2.claims id s.1).answer e, s') ∧
      leases s'.2.claims id s'.1 = (leases s.2.claims id s.1).next lifetime e ∧
      s'.2.lifetime = lifetime ∧ InTime lifetime steps s'.1 := by
  obtain ⟨now, k⟩ := s
  obtain ⟨rfl, hInTime⟩ := hFit
  cases e with
  | claim key =>
    by_cases hLive : 0 < leases k.claims id now key
    · have hClaim : k.claim now key = .ok (true, k) :=
        Keys.claim_of_isLive (by rw [isLive_eq, decide_eq_true hLive])
      refine ⟨(now, k), ?_, leases_claim_live hLive, rfl, hInTime.2⟩
      simp only [inMemory, hClaim, Leases.answer, hLive, decide_true]
      rfl
    · have hFree : k.isLive now key = false := by rw [isLive_eq, decide_eq_false hLive]
      have hClaim : k.claim now key = .ok (false, { k with
          claims := k.claims.put key (now + k.lifetime) }) := by
        rw [Keys.claim, if_neg (by simp [hFree]), if_pos hInTime.1]
      refine ⟨(now, { k with claims := k.claims.put key (now + k.lifetime) }), ?_,
        leases_put Function.injective_id hLive, rfl, hInTime.2⟩
      simp only [inMemory, hClaim, Leases.answer, hLive, decide_false]
      rfl
  | release key =>
    exact ⟨(now, k.release key), rfl, leases_erase Function.injective_id, rfl, hInTime⟩
  | wait ms => exact ⟨(now + ms, k), rfl, leases_wait ms, rfl, hInTime⟩

/-- A purge strikes off what has ended, and so takes nothing away from a lease. -/
theorem leases_purge (k : Keys) (now : Instant) :
    leases (k.purge now).2.claims id now = leases k.claims id now := by
  funext key
  unfold leases
  rw [Keys.get?_purge]
  cases k.claims.get? (id key) with
  | none => rfl
  | some expiry =>
    by_cases hLive : now < expiry
    · simp [Option.filter, hLive]
    · simp [Option.filter, hLive, Nat.sub_eq_zero_of_le (Nat.le_of_not_lt hLive)]

/-- The keys on a server do as their leases do. -/
theorem exists_onServer (space : KeySpace) (others : Collaborators KeyTable) (e : KeyStep)
    (t : KeyTable) :
    ∃ t', onServer space others e t = .ok ((leases t.ends space.name t.now).answer e, t') ∧
      leases t'.ends space.name t'.now =
        (leases t.ends space.name t.now).next space.lifetime e := by
  have hNamed : space.name.Injective := fun _ _ hSame => KeySpace.name_inj.mp hSame
  cases e with
  | claim key =>
    have hAnswer : onServer space others (.claim key) t =
        .ok ([⟨.claim key, .ok (t.isSet (space.name key))⟩],
          (t.set (space.name key) space.seconds).2) := by
      have hServed := served?_claim space t key
      simp only [served?, keyInquiry?, Option.map_some, Option.some.injEq, Prod.mk.injEq] at hServed
      simp only [onServer, overKeyServer, keyInquiry?, hServed.1, hServed.2]
    refine ⟨(t.set (space.name key) space.seconds).2, ?_, ?_⟩
    · rw [hAnswer, isSet_eq]
      rfl
    · by_cases hLive : 0 < leases t.ends space.name t.now key
      · have hSet : t.isSet (space.name key) = true := by
          rw [isSet_eq, decide_eq_true hLive]
        rw [KeyTable.set, if_pos hSet]
        exact leases_claim_live hLive
      · have hFree : ¬ t.isSet (space.name key) = true := by
          simp [isSet_eq, hLive]
        rw [KeyTable.set, if_neg hFree]
        exact leases_put hNamed hLive
  | release key => exact ⟨(t.delete (space.name key)).2, rfl, leases_erase hNamed⟩
  | wait ms => exact ⟨t.advance ms, rfl, leases_wait ms⟩

-- ---------------------------------------------------------------------------
-- Whole histories
-- ---------------------------------------------------------------------------

section Histories

variable {space : KeySpace} {steps : List KeyStep} {now : Instant}

/-- The claims in memory go by their own names. -/
theorem history_inMemory {lifetime : Nat} (hInTime : InTime lifetime steps now) :
    history inMemory steps (now, Keys.empty lifetime) =
      .ok (Leases.history lifetime steps Leases.none) := by
  have hFollows := history_eq (fun s : Instant × Keys => leases s.2.claims id s.1)
    (fun steps s => s.2.lifetime = lifetime ∧ InTime lifetime steps s.1)
    (exists_inMemory lifetime) steps (now, Keys.empty lifetime) ⟨rfl, hInTime⟩
  rw [hFollows]
  exact congrArg (fun left => Except.ok (Leases.history lifetime steps left)) leases_empty

/-- Those on a server go by the names that the prefix makes, and no instant is too late for them. -/
theorem history_onServer (space : KeySpace) (others : Collaborators KeyTable) (steps : List KeyStep)
    (now : Instant) :
    history (onServer space others) steps ⟨now, Table.empty⟩ =
      .ok (Leases.history space.lifetime steps Leases.none) := by
  have hFollows := history_eq (fun t : KeyTable => leases t.ends space.name t.now) (fun _ _ => True)
    (fun e _ t _ => by
      obtain ⟨t', hDone, hLeft⟩ := exists_onServer space others e t
      exact ⟨t', hDone, hLeft, trivial⟩) steps ⟨now, Table.empty⟩ trivial
  rw [hFollows]
  exact congrArg (fun left => Except.ok (Leases.history space.lifetime steps left)) leases_empty

/-- A server counts the whole seconds of a time and drops what is left over. -/
theorem KeySpace.lifetime_eq (hSecond : 1000 ≤ space.ttl) :
    space.lifetime = space.ttl - space.ttl % 1000 := by
  have hPos : 1 ≤ space.ttl / 1000 := (Nat.one_le_div_iff (by decide)).mpr hSecond
  rw [lifetime, seconds, Nat.max_eq_left hPos]
  omega

theorem KeySpace.lifetime_of_dvd (hSecond : 1000 ≤ space.ttl) (hWhole : 1000 ∣ space.ttl) :
    space.lifetime = space.ttl := by
  rw [lifetime_eq hSecond, Nat.mod_eq_zero_of_dvd hWhole, Nat.sub_zero]

/-- Over any history, the keys in memory answer as leases for the time that is asked for do, and the
keys on a server as leases for the whole seconds of it, which is less than a second short of it. If
nothing is left over, both answer alike. -/
theorem key_stores_follow_leases (hSecond : 1000 ≤ space.ttl) (hInTime : InTime space.ttl steps now)
    (others : Collaborators KeyTable) (serverNow : Instant) :
    history inMemory steps (now, Keys.empty space.ttl) =
        .ok (Leases.history space.ttl steps Leases.none) ∧
      history (onServer space others) steps ⟨serverNow, Table.empty⟩ =
        .ok (Leases.history space.lifetime steps Leases.none) ∧
      space.lifetime = space.ttl - space.ttl % 1000 ∧
      (1000 ∣ space.ttl → history inMemory steps (now, Keys.empty space.ttl) =
        history (onServer space others) steps ⟨serverNow, Table.empty⟩) := by
  have hMemory := history_inMemory hInTime
  have hServer := history_onServer space others steps serverNow
  refine ⟨hMemory, hServer, KeySpace.lifetime_eq hSecond, fun hWhole => ?_⟩
  rw [hMemory, hServer, KeySpace.lifetime_of_dvd hSecond hWhole]

/-- A key is claimed for a second and asked for again just before and at the end of it. -/
def lastMoment : List KeyStep :=
  [.claim "a", .wait 999, .claim "a", .wait 1, .claim "a", .release "a", .claim "a", .claim "b"]

/-- Asking for a key does not make its claim last any longer: at its end the key is free. -/
theorem free_at_last_moment :
    1000 ≤ 1000 ∧ InTime 1000 lastMoment 0 ∧ 1000 ∣ 1000 ∧
    history inMemory lastMoment (0, Keys.empty 1000) =
      history (onServer ⟨"wallet:", 1000⟩ fun _ t => (.error .cancelled, t)) lastMoment
        ⟨7, Table.empty⟩ ∧
    history inMemory lastMoment (0, Keys.empty 1000) =
      .ok [⟨.claim "a", .ok false⟩, ⟨.claim "a", .ok true⟩, ⟨.claim "a", .ok false⟩,
        ⟨.release "a", .ok ()⟩, ⟨.claim "a", .ok false⟩, ⟨.claim "b", .ok false⟩] := by
  have hInTime : InTime 1000 lastMoment 0 := by simp [lastMoment, InTime, Instant.limit]
  have hSecond : 1000 ≤ (⟨"wallet:", 1000⟩ : KeySpace).ttl := Nat.le_refl 1000
  obtain ⟨hMemory, -, -, hAlike⟩ :=
    key_stores_follow_leases hSecond hInTime (fun _ t => (.error .cancelled, t)) 7
  have hAnswers : Leases.history 1000 lastMoment Leases.none =
      [⟨.claim "a", .ok false⟩, ⟨.claim "a", .ok true⟩, ⟨.claim "a", .ok false⟩,
        ⟨.release "a", .ok ()⟩, ⟨.claim "a", .ok false⟩, ⟨.claim "b", .ok false⟩] := by
    simp [lastMoment, Leases.history, Leases.answer, Leases.next, Leases.none]
  exact ⟨Nat.le_refl 1000, hInTime, Nat.dvd_refl 1000, hAlike (Nat.dvd_refl 1000),
    hMemory.trans (congrArg Except.ok hAnswers)⟩

/-- The settings know whole seconds only, so the stores that they make answer alike. -/
theorem configured_stores_agree {config : Config} (hPos : 1 ≤ config.keyLifetimeSecs.toNat)
    (hInTime : InTime config.keyLifetime steps now) (others : Collaborators KeyTable)
    (serverNow : Instant) :
    history inMemory steps (now, Keys.empty config.keyLifetime) =
      history (onServer (.ofConfig config) others) steps ⟨serverNow, Table.empty⟩ := by
  have hSecond : 1000 ≤ (KeySpace.ofConfig config).ttl := Nat.le_mul_of_pos_left 1000 hPos
  have hWhole : 1000 ∣ (KeySpace.ofConfig config).ttl := Nat.dvd_mul_left 1000 _
  rw [history_inMemory hInTime, history_onServer, KeySpace.lifetime_of_dvd hSecond hWhole]
  rfl

-- ---------------------------------------------------------------------------
-- Times between seconds
-- ---------------------------------------------------------------------------

/-- A key is asked for, and again after a while. -/
def askedAgain (key : String) (ms : Nat) : List KeyStep := [.claim key, .wait ms, .claim key]

theorem Leases.history_askedAgain (lifetime : Nat) (key : String) (ms : Nat) :
    Leases.history lifetime (askedAgain key ms) Leases.none =
      [⟨.claim key, .ok false⟩, ⟨.claim key, .ok (decide (ms < lifetime))⟩] := by
  simp only [askedAgain, Leases.history, Leases.answer, Leases.next, Leases.none, and_self,
    if_true, Nat.lt_irrefl, decide_false, Nat.sub_pos_iff_lt, List.nil_append, List.cons_append]

/-- A key that is asked for again after its whole seconds, and before the time that was asked for is
over, is still in use in memory and free on a server. -/
theorem told_apart {ms : Nat} (hOver : space.lifetime ≤ ms) (hWithin : ms < space.ttl)
    (hInTime : now + ms + space.ttl < Instant.limit) (key : String)
    (others : Collaborators KeyTable) (serverNow : Instant) :
    history inMemory (askedAgain key ms) (now, Keys.empty space.ttl) =
        .ok [⟨.claim key, .ok false⟩, ⟨.claim key, .ok true⟩] ∧
      history (onServer space others) (askedAgain key ms) ⟨serverNow, Table.empty⟩ =
        .ok [⟨.claim key, .ok false⟩, ⟨.claim key, .ok false⟩] := by
  have hFirst : now + space.ttl < Instant.limit :=
    Nat.lt_of_le_of_lt (Nat.add_le_add_right (Nat.le_add_right now ms) _) hInTime
  have hBoth : InTime space.ttl (askedAgain key ms) now := ⟨hFirst, hInTime, trivial⟩
  constructor
  · rw [history_inMemory hBoth, Leases.history_askedAgain, decide_eq_true hWithin]
  · rw [history_onServer, Leases.history_askedAgain, decide_eq_false (Nat.not_lt.mpr hOver)]

/-- Claims that are to last for a second and a half. -/
def secondAndHalf : KeySpace := ⟨"idempotency:", 1500⟩

/-- A key is claimed for a second and a half, and asked for again after 1200 milliseconds: it is in use
in memory, and free on a server. -/
theorem free_before_ttl :
    1000 ≤ secondAndHalf.ttl ∧ InTime secondAndHalf.ttl (askedAgain "a" 1200) 0 ∧
    history inMemory (askedAgain "a" 1200) (0, Keys.empty secondAndHalf.ttl) =
      .ok [⟨.claim "a", .ok false⟩, ⟨.claim "a", .ok true⟩] ∧
    history (onServer secondAndHalf fun _ t => (.error .cancelled, t)) (askedAgain "a" 1200)
        ⟨0, Table.empty⟩ = .ok [⟨.claim "a", .ok false⟩, ⟨.claim "a", .ok false⟩] ∧
    history inMemory (askedAgain "a" 1200) (0, Keys.empty secondAndHalf.ttl) ≠
      history (onServer secondAndHalf fun _ t => (.error .cancelled, t)) (askedAgain "a" 1200)
        ⟨0, Table.empty⟩ := by
  have hInTime : InTime secondAndHalf.ttl (askedAgain "a" 1200) 0 := by
    simp [secondAndHalf, askedAgain, InTime, Instant.limit]
  have hOver : secondAndHalf.lifetime ≤ 1200 := by decide
  have hWithin : 1200 < secondAndHalf.ttl := by decide
  obtain ⟨hMemory, hServer⟩ := told_apart hOver hWithin hInTime.2.1 "a"
    (fun _ t => (.error .cancelled, t)) 0
  refine ⟨by decide, hInTime, hMemory, hServer, ?_⟩
  rw [hMemory, hServer]
  nofun

end Histories

end Purse.Remote
