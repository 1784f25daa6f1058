import Purse.Proofs.Keys.Answers
import Purse.Proofs.Store.Readers

/-!
# What purges come to

A purge strikes off the claims that have ended, no more and no fewer, and says how many they were. No
later claim can tell that it happened. What is on record adds up: each claim that was granted is still
there, unless it was purged, given back, or written over by a later claim after it had ended.

## Definitions

* `Keys.Books`: keys along what happens to them, and how many claims came to what.

## Results

* `Keys.answers_filter`: purges make no difference to any answer.
* `Keys.fst_purge`, `Keys.purge_again`: how many claims a purge strikes off.
* `Keys.Books.balanced_run`: the books of keys are balanced, whatever happens.
* `Keys.purges_unseen_and_exact`: the three together.
-/

namespace Purse

namespace Table

variable {κ α : Type}

theorem size_eq_length_keys (t : Table κ α) : t.size = t.keys.length := (List.length_map _).symm

theorem size_keep_add (t : Table κ α) (p : α → Bool) :
    (t.keep p).size + t.entries.countP (fun e => !p e.2) = t.size := by
  rw [List.countP_eq_length_filter]
  exact List.length_eq_length_filter_add _ |>.symm

variable [DecidableEq κ]

theorem size_put_add (t : Table κ α) (k : κ) (v : α) :
    (t.put k v).size + (if (t.get? k).isSome then 1 else 0) = t.size + 1 := by
  rw [size_eq_length_keys, size_eq_length_keys]
  by_cases hMem : k ∈ t.keys
  · rw [if_pos (mem_keys_iff.mp hMem)]
    exact congrArg (List.length · + 1) (keys_assign_of_mem hMem)
  · rw [if_neg fun hSome => hMem (mem_keys_iff.mpr hSome), keys_put hMem, List.length_append]
    rfl

theorem keys_erase (t : Table κ α) (k : κ) : (t.erase k).keys = t.keys.erase k := by
  have hNodup : t.keys.Nodup := t.nodup
  rw [hNodup.erase_eq_filter, keys, keys, List.filter_map]
  refine congrArg _ (List.filter_congr fun e _ => ?_)
  by_cases hKey : e.1 = k <;> simp [hKey]

theorem size_erase_add (t : Table κ α) (k : κ) :
    (t.erase k).size + (if (t.get? k).isSome then 1 else 0) = t.size := by
  rw [size_eq_length_keys, size_eq_length_keys, keys_erase]
  by_cases hMem : k ∈ t.keys
  · have hPos : 0 < t.keys.length := List.length_pos_of_mem hMem
    rw [if_pos (mem_keys_iff.mp hMem), List.length_erase_of_mem hMem]
    omega
  · rw [if_neg fun hSome => hMem (mem_keys_iff.mpr hSome), List.erase_of_not_mem hMem]
    rfl

end Table

namespace Keys

variable {k : Keys} {now : Instant} {key : String} {acts : List Act}

-- ---------------------------------------------------------------------------
-- Purges are not seen
-- ---------------------------------------------------------------------------

/-- Whether keys are purged. -/
def Act.isPurge : Act → Bool
  | .purge => true
  | _ => false

theorem same_purge (now : Instant) (k : Keys) : Same now (k.purge now).2 k := by
  refine ⟨rfl, fun key => ?_⟩
  unfold live?
  rw [get?_purge, Option.filter_filter]
  simp

/-- Without the purges, all claims are answered the same. -/
theorem answers_filter (acts : List Act) (now : Instant) (k : Keys) :
    answers (acts.filter (!·.isPurge)) now k = answers acts now k := by
  induction acts generalizing now k with
  | nil => rfl
  | cons act acts ih =>
    cases act with
    | purge => exact (ih now k).trans ((same_purge now k).answers_eq acts)
    | claim key =>
      show answers (.claim key :: acts.filter _) now k = _
      unfold answers
      simp only [ih]
    | release key => exact ih now (k.release key)
    | wait ms => exact ih (now + ms) k

-- ---------------------------------------------------------------------------
-- What a purge strikes off
-- ---------------------------------------------------------------------------

theorem fst_purge_add_size (k : Keys) (now : Instant) :
    (k.purge now).1 + (k.purge now).2.size = k.size := by
  have hKept := k.claims.size_keep_add (now < ·)
  show k.claims.size - (k.claims.keep _).size + (k.claims.keep _).size = k.claims.size
  omega

/-- A purge strikes off as many claims as have ended. -/
theorem fst_purge (k : Keys) (now : Instant) :
    (k.purge now).1 = k.claims.entries.countP fun e => e.2 ≤ now := by
  have hKept := k.claims.size_keep_add (now < ·)
  have hEnded : (fun e : String × Instant => !decide (now < e.2)) = fun e => decide (e.2 ≤ now) :=
    funext fun e => by rw [← decide_not, decide_eq_decide, Nat.not_lt]
  rw [hEnded] at hKept
  show k.claims.size - (k.claims.keep _).size = _
  omega

theorem get?_purge_eq_some_iff {expiry : Instant} :
    (k.purge now).2.claims.get? key = some expiry ↔
      k.claims.get? key = some expiry ∧ now < expiry := by
  rw [get?_purge, Option.filter_eq_some_iff, decide_eq_true_iff]

/-- A purge leaves nothing to another one at the same instant. -/
theorem purge_again (k : Keys) (now : Instant) : ((k.purge now).2.purge now).1 = 0 := by
  rw [fst_purge, List.countP_eq_zero]
  intro e hMem
  have hLive : now < e.2 := of_decide_eq_true (List.mem_filter.mp hMem).2
  simpa using hLive

-- ---------------------------------------------------------------------------
-- What becomes of the claims that are granted
-- ---------------------------------------------------------------------------

/-- Whether a claim of a key has ended and is still on record. -/
def hasEnded (k : Keys) (now : Instant) (key : String) : Bool := (k.claims.get? key).any (· ≤ now)

/-- Where a key is free, all that may be on record of it is a claim that has ended. -/
theorem hasEnded_of_free (hFree : k.isLive now key = false) :
    k.hasEnded now key = (k.claims.get? key).isSome := by
  unfold isLive at hFree
  unfold hasEnded
  cases hGet : k.claims.get? key with
  | none => rfl
  | some expiry => simpa [hGet] using hFree

/-- Keys along what happens to them, with counts of what the claims came to. -/
structure Books where
  now : Instant
  keys : Keys
  /-- The claims by which a key was taken into use. -/
  granted : Nat
  /-- The claims among these by which an ended one was written over. -/
  overwritten : Nat
  /-- The claims that were given back. -/
  released : Nat
  /-- The claims that purges said to have struck off. -/
  purged : Nat

namespace Books

variable {b : Books}

/-- The books of keys none of which is in use. -/
def opened (now : Instant) (lifetime : Nat) : Books := ⟨now, Keys.empty lifetime, 0, 0, 0, 0⟩

/-- The books after something happened. -/
def act (b : Books) : Act → Books
  | .claim key =>
    match b.keys.claim b.now key with
    | .ok (false, k) =>
      { b with
        keys := k
        granted := b.granted + 1
        overwritten := b.overwritten + if b.keys.hasEnded b.now key then 1 else 0 }
    | .ok (true, _) => b
    | .error _ => b
  | .release key =>
    { b with
      keys := b.keys.release key
      released := b.released + if (b.keys.claims.get? key).isSome then 1 else 0 }
  | .purge =>
    let (count, k) := b.keys.purge b.now
    { b with keys := k, purged := b.purged + count }
  | .wait ms => { b with now := b.now + ms }

/-- The books after several things happened. -/
def run (b : Books) (acts : List Act) : Books := acts.foldl act b

/-- What comes of a claim: the key is taken into use, over a claim that has ended if one is on record, or
the books stay as they are. -/
theorem act_claim (b : Books) (key : String) :
    (∃ k, b.keys.claim b.now key = .ok (false, k) ∧
      b.act (.claim key) =
        { b with
          keys := k
          granted := b.granted + 1
          overwritten := b.overwritten + if (b.keys.claims.get? key).isSome then 1 else 0 }) ∨
    (b.keys.claim b.now key = .ok (true, b.keys) ∨
      ∃ fault, b.keys.claim b.now key = .error fault) ∧ b.act (.claim key) = b := by
  cases hClaim : b.keys.claim b.now key with
  | error fault => exact .inr ⟨.inr ⟨fault, rfl⟩, by simp only [act, hClaim]⟩
  | ok answer =>
    obtain ⟨inUse, k⟩ := answer
    cases inUse with
    | true =>
      obtain ⟨-, rfl⟩ := claim_inUse hClaim
      exact .inr ⟨.inl rfl, by simp only [act, hClaim]⟩
    | false =>
      have hEnded := hasEnded_of_free (claim_free hClaim).1
      exact .inl ⟨k, rfl, by simp only [act, hClaim, hEnded]⟩

/-- Each claim that was granted is on record, or was purged, given back or written over. -/
def Balanced (b : Books) : Prop :=
  b.purged + b.keys.size + b.released + b.overwritten = b.granted

theorem balanced_act (hBalanced : b.Balanced) (act : Act) : (b.act act).Balanced := by
  unfold Balanced at *
  cases act with
  | claim key =>
    rcases b.act_claim key with ⟨k, hClaim, hAct⟩ | ⟨-, hAct⟩
    · have hSize := b.keys.claims.size_put_add key (b.now + b.keys.lifetime)
      rw [hAct, (claim_free hClaim).2]
      simp only [Keys.size] at *
      omega
    · rw [hAct]
      exact hBalanced
  | release key =>
    have hSize := b.keys.claims.size_erase_add key
    show b.purged + (b.keys.claims.erase key).size + (b.released + _) + b.overwritten = b.granted
    unfold Keys.size at hBalanced
    omega
  | purge =>
    have hSize := b.keys.fst_purge_add_size b.now
    show b.purged + (b.keys.purge b.now).1 + (b.keys.purge b.now).2.size + b.released +
      b.overwritten = b.granted
    omega
  | wait ms => exact hBalanced

/-- The books stay balanced, whatever happens. -/
theorem balanced_run (hBalanced : b.Balanced) (acts : List Act) : (b.run acts).Balanced := by
  induction acts generalizing b with
  | nil => exact hBalanced
  | cons act acts ih => exact ih (balanced_act hBalanced act)

/-- Whether a claim was answered that the key was free. -/
def isGrant : Except Fault Bool → Bool
  | .ok inUse => !inUse
  | .error _ => false

/-- As many claims are granted as are answered that the key was free. -/
theorem granted_run (b : Books) (acts : List Act) :
    (b.run acts).granted = b.granted + (answers acts b.now b.keys).countP isGrant := by
  induction acts generalizing b with
  | nil => rfl
  | cons act acts ih =>
    show ((b.act act).run acts).granted = _
    rw [ih]
    cases act with
    | claim key =>
      rcases b.act_claim key with ⟨k, hClaim, hAct⟩ | ⟨hClaim | ⟨fault, hClaim⟩, hAct⟩
      · simp only [hAct, answers, hClaim]
        rw [List.countP_cons_of_pos rfl, Nat.add_right_comm, Nat.add_assoc]
      · simp only [hAct, answers, hClaim]
        rw [List.countP_cons_of_neg Bool.false_ne_true]
      · simp only [hAct, answers, hClaim]
        rw [List.countP_cons_of_neg Bool.false_ne_true]
    | release key | purge | wait ms => rfl

/-- Where no key is given back, no claim is counted so. -/
theorem released_run (hNone : ∀ key, Act.release key ∉ acts) : (b.run acts).released = b.released := by
  induction acts generalizing b with
  | nil => rfl
  | cons act acts ih =>
    show ((b.act act).run acts).released = _
    rw [ih fun key hMem => hNone key (List.mem_cons_of_mem act hMem)]
    cases act with
    | release key => exact absurd List.mem_cons_self (hNone key)
    | claim key => rcases b.act_claim key with ⟨k, -, hAct⟩ | ⟨-, hAct⟩ <;> rw [hAct]
    | purge | wait ms => rfl

end Books

/-- No answer depends on purges; a purge strikes off the claims that have ended, and counts them; and
where no key is given back, what was purged and what is on record are the claims that were granted but
for those that were written over. -/
theorem purges_unseen_and_exact (acts : List Act) (now : Instant) (k : Keys) (lifetime : Nat) :
    answers (acts.filter (!·.isPurge)) now k = answers acts now k ∧
    ((k.purge now).1 = k.claims.entries.countP (fun e => e.2 ≤ now) ∧
      (∀ key expiry, (k.purge now).2.claims.get? key = some expiry ↔
        k.claims.get? key = some expiry ∧ now < expiry) ∧
      ((k.purge now).2.purge now).1 = 0) ∧
    let b := (Books.opened now lifetime).run acts
    b.granted = (answers acts now (Keys.empty lifetime)).countP Books.isGrant ∧
      b.overwritten ≤ b.granted ∧
      ((∀ key, Act.release key ∉ acts) → b.purged + b.keys.size = b.granted - b.overwritten) := by
  refine ⟨answers_filter acts now k, ⟨k.fst_purge now, fun key expiry => get?_purge_eq_some_iff,
    k.purge_again now⟩, ?_⟩
  intro b
  have hBalanced : b.purged + b.keys.size + b.released + b.overwritten = b.granted :=
    Books.balanced_run (b := Books.opened now lifetime) rfl acts
  refine ⟨?_, by omega, fun hNone => ?_⟩
  · have hGranted := (Books.opened now lifetime).granted_run acts
    rwa [show (Books.opened now lifetime).granted = 0 from rfl, Nat.zero_add] at hGranted
  · have hReleased : b.released = 0 := Books.released_run hNone
    omega

/-- Four claims of three keys that last ten milliseconds: one key is claimed anew after its end, another
is purged, and two claims are on record. -/
theorem one_purged_one_overwritten :
    let acts := [Act.claim "a", .claim "b", .wait 10, .claim "a", .purge, .claim "c"]
    let b := (Books.opened 0 10).run acts
    b.purged = 1 ∧ b.keys.size = 2 ∧ b.granted = 4 ∧ b.overwritten = 1 ∧
      b.purged + b.keys.size = b.granted - b.overwritten := by
  intro acts b
  obtain ⟨-, -, -, -, hCount⟩ := purges_unseen_and_exact acts 0 (Keys.empty 10) 10
  exact ⟨by decide +kernel, by decide +kernel, by decide +kernel, by decide +kernel,
    hCount (by simp [acts])⟩

end Keys

end Purse
