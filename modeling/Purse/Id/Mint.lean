import Purse.Id.Wallet

/-!
# The mint

Makes new wallet ids that ascend. A clock reading past the millisecond of the previous id starts a
fresh id from that reading and 80 random bits. Any other reading, be it the same millisecond or an
earlier one, adds one to the previous id, and is refused where the random bits of that id are all
set.
-/

namespace Purse

/-- The source of new ids. -/
structure Mint where
  /-- The id made last; the zero id before the first. -/
  previous : WalletId
  deriving DecidableEq, Repr, Inhabited

namespace Mint

/-- How many ids share a millisecond. -/
def perMillisecond : Nat := 1 <<< 80

/-- A mint that has made no id. -/
def fresh : Mint := ⟨WalletId.ofNat 0⟩

/-- The millisecond of the id made last. -/
def lastMillisecond (m : Mint) : Nat := m.previous.val / perMillisecond

/-- The id of a millisecond, of which 48 bits count, and of 80 random bits. -/
def compose (ms random : Nat) : WalletId :=
  WalletId.ofNat (ms % 1 <<< 48 * perMillisecond + random % perMillisecond)

/-- The next id at a clock reading, and the mint after it; nothing where the millisecond is used up. -/
def next? (m : Mint) (ms random : Nat) : Option (WalletId × Mint) :=
  if ms ≤ m.lastMillisecond then
    if m.previous.val % perMillisecond = perMillisecond - 1 then none
    else
      let id := WalletId.ofNat (m.previous.val + 1)
      some (id, ⟨id⟩)
  else
    let id := compose ms random
    some (id, ⟨id⟩)

end Mint

end Purse
