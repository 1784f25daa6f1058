import Purse.Keys
import Purse.Remote.KeyServer

/-!
# A key server

What a key server does with its commands: it keeps the names that are set, each with the instant at
which it ends. A name is set before its end and not at it.
-/

namespace Purse.Remote

/-- The names that are set, at a point in time. -/
structure KeyTable where
  now : Instant
  ends : Table String Instant

namespace KeyTable

/-- No names set. -/
def empty : KeyTable := ⟨0, Table.empty⟩

/-- Whether a name is set. -/
def isSet (t : KeyTable) (name : String) : Bool :=
  match t.ends.get? name with
  | some e => t.now < e
  | none => false

/-- Lets time pass. -/
def advance (t : KeyTable) (ms : Nat) : KeyTable := { t with now := t.now + ms }

/-- Sets a name for a number of seconds, unless it is set. -/
def set (t : KeyTable) (name : String) (seconds : Nat) : Option String × KeyTable :=
  if t.isSet name then (none, t)
  else (some "OK", { t with ends := t.ends.put name (t.now + seconds * 1000) })

/-- Deletes a name, and tells how many were set. -/
def delete (t : KeyTable) (name : String) : Int × KeyTable :=
  (if t.isSet name then 1 else 0, { t with ends := t.ends.erase name })

/-- Answers a command. -/
def answer : KeyServer KeyTable
  | .set name seconds, t => (.ok (t.set name seconds).1, (t.set name seconds).2)
  | .delete name, t => (.ok (t.delete name).1, (t.delete name).2)

end KeyTable

end Purse.Remote
