import Purse.Error
import Purse.Table

/-!
# Idempotency keys

Keys in use, each with the instant at which its claim ends. Instants are counted in milliseconds on a
clock that never goes back. A claim is live before its end and not at it. A claim that has ended stays
on record until the key is claimed anew, released or purged.
-/

namespace Purse

/-- A point in time, in milliseconds. -/
abbrev Instant := Nat

/-- No instant lies here or later. -/
def Instant.limit : Nat := 1 <<< 63 * 1000

/-- The keys in use. -/
structure Keys where
  /-- How long a claim lasts, in milliseconds. -/
  lifetime : Nat
  /-- The end of each claim. -/
  claims : Table String Instant

namespace Keys

/-- No keys in use. -/
def empty (lifetime : Nat) : Keys := ⟨lifetime, Table.empty⟩

/-- Whether a key has a live claim. -/
def isLive (k : Keys) (now : Instant) (key : String) : Bool :=
  match k.claims.get? key with
  | some expiry => now < expiry
  | none => false

/-- Tells whether a key is in use. One that is not is taken into use, for a lifetime from now on; there
is no answer where that lifetime goes past the last instant. -/
def claim (k : Keys) (now : Instant) (key : String) : Except Fault (Bool × Keys) :=
  if k.isLive now key then .ok (true, k)
  else if now + k.lifetime < Instant.limit then
    .ok (false, { k with claims := k.claims.put key (now + k.lifetime) })
  else .error .instantOverflow

/-- Takes a key out of use. -/
def release (k : Keys) (key : String) : Keys := { k with claims := k.claims.erase key }

/-- Strikes every claim that has ended off the record, and counts them. -/
def purge (k : Keys) (now : Instant) : Nat × Keys :=
  let kept := k.claims.keep (now < ·)
  (k.claims.size - kept.size, { k with claims := kept })

/-- How many claims are on record. -/
def size (k : Keys) : Nat := k.claims.size

end Keys

end Purse
