import Purse.Keys

/-!
# Claims on keys

What each operation does to the end of each claim. A claim is made only where none is live, and a
live claim ends by being released, or when its time has come.

## Results

* `claim_free`, `claim_inUse`: the two answers to a claim.
* `get?_release`, `get?_purge`: what becomes of the other claims.
-/

namespace Purse

namespace Table

variable {κ α : Type} [DecidableEq κ]

theorem lookup_eq_none {es : List (κ × α)} {k : κ} (hNot : k ∉ es.map Prod.fst) :
    lookup k es = none := by
  induction es with
  | nil => rfl
  | cons e es ih =>
    rw [List.map_cons, List.mem_cons, not_or] at hNot
    rw [lookup, if_neg (Ne.symm hNot.1), ih hNot.2]

theorem get?_keep (t : Table κ α) (p : α → Bool) (k : κ) :
    (t.keep p).get? k = (t.get? k).filter p := by
  obtain ⟨es, hNodup⟩ := t
  show lookup k (es.filter fun e => p e.2) = (lookup k es).filter p
  induction es with
  | nil => rfl
  | cons e es ih =>
    rw [List.map_cons, List.nodup_cons] at hNodup
    have hRest := ih hNodup.2
    rw [List.filter_cons]
    by_cases hHead : e.1 = k
    · -- the key comes in no other entry
      subst hHead
      rw [lookup_eq_none hNodup.1] at hRest
      by_cases hKept : p e.2 = true <;> simp [hKept, lookup, hRest, Option.filter]
    · rw [lookup, if_neg hHead, ← hRest]
      by_cases hKept : p e.2 = true <;> simp [hKept, lookup, hHead]

theorem filter_assign (k : κ) (v : α) (es : List (κ × α)) :
    (assign k v es).filter (·.1 ≠ k) = es.filter (·.1 ≠ k) := by
  induction es with
  | nil => simp [assign]
  | cons e es ih =>
    unfold assign
    by_cases hHead : e.1 = k
    · simp [hHead]
    · rw [if_neg hHead, List.filter_cons, List.filter_cons, ih]

/-- To erase a key is to erase all that was made of it before. -/
theorem erase_put (t : Table κ α) (k : κ) (v : α) : (t.put k v).erase k = t.erase k := by
  unfold erase put
  simp only [filter_assign]

end Table

namespace Keys

variable {k k' : Keys} {now expiry : Instant} {key : String}

theorem isLive_of_get? (hGet : k.claims.get? key = some expiry) :
    k.isLive now key = decide (now < expiry) := by
  unfold isLive
  rw [hGet]

/-- A key is taken into use only if it has no live claim, for a lifetime from now on. -/
theorem claim_free (hClaim : k.claim now key = .ok (false, k')) :
    k.isLive now key = false ∧
      k' = { k with claims := k.claims.put key (now + k.lifetime) } := by
  unfold claim at hClaim
  split at hClaim
  · simp at hClaim
  · next hFree =>
    split at hClaim
    · exact ⟨by simpa using hFree, by simpa using hClaim.symm⟩
    · simp at hClaim

/-- A key in use stays as it is. -/
theorem claim_inUse (hClaim : k.claim now key = .ok (true, k')) :
    k.isLive now key = true ∧ k' = k := by
  unfold claim at hClaim
  split at hClaim
  · next hLive => exact ⟨hLive, by simpa using hClaim.symm⟩
  · split at hClaim <;> simp at hClaim

theorem claim_of_isLive (hLive : k.isLive now key = true) : k.claim now key = .ok (true, k) := by
  unfold claim
  rw [if_pos hLive]

theorem get?_release (k : Keys) (key x : String) :
    (k.release key).claims.get? x = if x = key then none else k.claims.get? x :=
  Table.get?_erase k.claims key x

/-- A purge strikes off the claims that have ended. -/
theorem get?_purge (k : Keys) (now : Instant) (key : String) :
    (k.purge now).2.claims.get? key = (k.claims.get? key).filter (now < ·) :=
  Table.get?_keep k.claims _ key

end Keys

end Purse
