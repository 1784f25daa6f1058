import Purse.Proofs.Keys.Claims

/-!
# What keys answer

All that comes of keys are the answers to claims. These depend on the claims that are live and on the
lifetime of those to come, and on no claim that has ended (`Keys.Same`): it makes no difference to any
later answer whether it is still on record.

## Definitions

* `Keys.Act`, `Keys.answers`: what happens to keys, and what they answer.
* `Keys.live?`, `Keys.Same`: keys with the same live claims.

## Results

* `Keys.Same.answers_eq`: they answer alike.
* `Keys.same_release`: to give back a key that has no live claim makes no difference.
-/

namespace Purse.Keys

/-- What happens to keys: one is asked for or given back, those that have ended are struck off, or time
passes. -/
inductive Act where
  | claim (key : String)
  | release (key : String)
  | purge
  | wait (ms : Nat)

/-- What the claims are answered, one after another. One that runs into a limit changes nothing. -/
def answers : List Act → Instant → Keys → List (Except Fault Bool)
  | [], _, _ => []
  | .claim key :: acts, now, k =>
    match k.claim now key with
    | .ok (inUse, k) => .ok inUse :: answers acts now k
    | .error fault => .error fault :: answers acts now k
  | .release key :: acts, now, k => answers acts now (k.release key)
  | .purge :: acts, now, k => answers acts now (k.purge now).2
  | .wait ms :: acts, now, k => answers acts (now + ms) k

/-- The end of the live claim of a key. -/
def live? (k : Keys) (now : Instant) (key : String) : Option Instant :=
  (k.claims.get? key).filter (now < ·)

variable {k k' k'' : Keys} {now : Instant} {key : String}

theorem isLive_eq_isSome (k : Keys) (now : Instant) (key : String) :
    k.isLive now key = (k.live? now key).isSome := by
  unfold isLive live?
  cases k.claims.get? key with
  | none => rfl
  | some expiry => by_cases hLive : now < expiry <;> simp [Option.filter, hLive]

/-- Keys have the same live claims, and claims to come last as long. -/
structure Same (now : Instant) (k k' : Keys) : Prop where
  lifetime : k'.lifetime = k.lifetime
  live : ∀ key, k'.live? now key = k.live? now key

namespace Same

theorem isLive_eq (hSame : Same now k k') (key : String) : k'.isLive now key = k.isLive now key := by
  rw [isLive_eq_isSome, isLive_eq_isSome, hSame.live]

theorem refl (now : Instant) (k : Keys) : Same now k k := ⟨rfl, fun _ => rfl⟩

theorem symm (hSame : Same now k k') : Same now k' k :=
  ⟨hSame.lifetime.symm, fun key => (hSame.live key).symm⟩

theorem trans (hFirst : Same now k k') (hSecond : Same now k' k'') : Same now k k'' :=
  ⟨hSecond.lifetime.trans hFirst.lifetime, fun key => (hSecond.live key).trans (hFirst.live key)⟩

theorem put (hSame : Same now k k') (key : String) (expiry : Instant) :
    Same now { k with claims := k.claims.put key expiry }
      { k' with claims := k'.claims.put key expiry } := by
  refine ⟨hSame.lifetime, fun x => ?_⟩
  unfold live?
  rw [Table.get?_put, Table.get?_put]
  split
  · rfl
  · exact hSame.live x

theorem release (hSame : Same now k k') (key : String) :
    Same now (k.release key) (k'.release key) := by
  refine ⟨hSame.lifetime, fun x => ?_⟩
  unfold live?
  rw [get?_release, get?_release]
  split
  · rfl
  · exact hSame.live x

theorem purge (hSame : Same now k k') : Same now (k.purge now).2 (k'.purge now).2 := by
  have hKept : ∀ (k : Keys) (x : String), (k.purge now).2.live? now x = k.live? now x := by
    intro k x
    unfold live?
    rw [get?_purge, Option.filter_filter]
    simp
  refine ⟨hSame.lifetime, fun x => ?_⟩
  rw [hKept, hKept, hSame.live]

theorem wait (hSame : Same now k k') (ms : Nat) : Same (now + ms) k k' := by
  have hLater : ∀ (k : Keys) (x : String),
      k.live? (now + ms) x = (k.live? now x).filter (now + ms < ·) := by
    intro k x
    unfold live?
    rw [Option.filter_filter]
    congr 1
    funext expiry
    by_cases hLive : now + ms < expiry
    · simp [hLive, Nat.lt_of_le_of_lt (Nat.le_add_right now ms) hLive]
    · simp [hLive]
  refine ⟨hSame.lifetime, fun x => ?_⟩
  rw [hLater, hLater, hSame.live]

/-- Keys with the same live claims answer alike, whatever happens to them. -/
theorem answers_eq (hSame : Same now k k') (acts : List Act) :
    answers acts now k' = answers acts now k := by
  induction acts generalizing now k k' with
  | nil => rfl
  | cons act acts ih =>
    cases act with
    | claim key =>
      unfold answers claim
      rw [hSame.isLive_eq, hSame.lifetime]
      by_cases hLive : k.isLive now key = true
      · simp only [if_pos hLive, ih hSame]
      · by_cases hWithin : now + k.lifetime < Instant.limit
        · have hNext := hSame.put key (now + k.lifetime)
          rw [hSame.lifetime] at hNext
          simp only [if_neg hLive, if_pos hWithin, ih hNext]
        · simp only [if_neg hLive, if_neg hWithin, ih hSame]
    | release key => exact ih (hSame.release key)
    | purge => exact ih hSame.purge
    | wait ms => exact ih (hSame.wait ms)

end Same

/-- To give back a key that has no live claim makes no difference. -/
theorem same_release (hFree : k.isLive now key = false) : Same now k (k.release key) := by
  refine ⟨rfl, fun x => ?_⟩
  rw [isLive_eq_isSome, Option.isSome_eq_false_iff, Option.isNone_iff_eq_none] at hFree
  unfold live?
  rw [get?_release]
  by_cases hKey : x = key
  · subst hKey
    rw [if_pos rfl]
    exact hFree.symm
  · rw [if_neg hKey]

end Purse.Keys
