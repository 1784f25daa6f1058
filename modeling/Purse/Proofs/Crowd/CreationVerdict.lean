import Purse.Proofs.Crowd.Lone

/-!
# What comes of a creation

A new wallet comes of a request that stands its checks, unless the mint has used up its millisecond or
the id is taken (`NewWallet.made`). A request that fails its checks leaves the mint alone; any other one
takes an id from it, if there is one.

An id is past every id before it as long as the clock reads a millisecond that ids can tell. Then an id
is never taken if the mint is past all wallets. Where the clock reads a later millisecond, it makes no
difference which id was made last (`Mint.same_of_beyond`).

## Definitions

* `Mint.Same`: two mints make the same ids at a reading of the clock.
* `NewWallet.made`, `NewWallet.mintAfter`: what comes of a request, and of the mint.
* `NewWallet.Leaves`: the ledger before and after a request.

## Results

* `Mint.lt_of_next?`: ids ascend.
* `Ledger.drive_creation`, `Schedule.execute_creation`: what comes of a creation.
-/

namespace Purse

-- ---------------------------------------------------------------------------
-- The mint
-- ---------------------------------------------------------------------------

namespace Mint

variable {m m' : Mint} {ms random : Nat} {id : WalletId}

/-- Two mints make the same ids at a reading of the clock, by the same random bits. -/
def Same (ms : Nat) (m m' : Mint) : Prop := ∀ random, m'.next? ms random = m.next? ms random

/-- The milliseconds that ids can tell take 48 bits. -/
theorem lastMillisecond_lt (m : Mint) : m.lastMillisecond < 1 <<< 48 := by
  have hCount : m.previous.val < perMillisecond * 1 <<< 48 := by
    have hId := m.previous.val_lt
    rwa [show WalletId.count = perMillisecond * 1 <<< 48 by decide] at hId
  exact Nat.div_lt_of_lt_mul hCount

/-- Past the milliseconds that ids can tell, every id starts afresh. -/
theorem same_of_beyond (hBeyond : 1 <<< 48 ≤ ms) (m m' : Mint) : Same ms m m' := by
  have hFresh : ∀ (m : Mint) (random : Nat),
      m.next? ms random = some (compose ms random, ⟨compose ms random⟩) := by
    intro m random
    have hLater : ¬ ms ≤ m.lastMillisecond :=
      Nat.not_le.mpr (Nat.lt_of_lt_of_le m.lastMillisecond_lt hBeyond)
    unfold next?
    rw [if_neg hLater]
  intro random
  rw [hFresh, hFresh]

/-- Ids ascend, as long as the clock reads a millisecond that they can tell. -/
theorem lt_of_next? (hWithin : ms < 1 <<< 48) (hNext : m.next? ms random = some (id, m')) :
    m.previous.val < id.val ∧ m'.previous = id := by
  unfold next? at hNext
  split at hNext
  · split at hNext
    · cases hNext
    · next hRoom =>
      cases hNext
      refine ⟨?_, rfl⟩
      -- the id before was not the last one of all
      have hLess : m.previous.val + 1 < WalletId.count := by
        have hId := m.previous.val_lt
        unfold perMillisecond at hRoom
        simp only [WalletId.count, Nat.one_shiftLeft] at hId hRoom ⊢
        omega
      show m.previous.val < (m.previous.val + 1) % WalletId.count
      rw [Nat.mod_eq_of_lt hLess]
      exact Nat.lt_succ_self _
  · next hLater =>
    cases hNext
    refine ⟨?_, rfl⟩
    have hRandom : random % perMillisecond < perMillisecond :=
      Nat.mod_lt _ (by decide)
    have hComposed : ms * perMillisecond + random % perMillisecond < WalletId.count := by
      simp only [WalletId.count, perMillisecond, Nat.one_shiftLeft] at *
      omega
    have hPrevious : m.previous.val < ms * perMillisecond := by
      have hLast := Nat.not_le.mp hLater
      exact Nat.lt_mul_of_div_lt hLast (by decide)
    show m.previous.val < (ms % 1 <<< 48 * perMillisecond + random % perMillisecond) % WalletId.count
    rw [Nat.mod_eq_of_lt hWithin, Nat.mod_eq_of_lt hComposed]
    exact Nat.lt_add_right _ hPrevious

end Mint

-- ---------------------------------------------------------------------------
-- What may come of a request
-- ---------------------------------------------------------------------------

namespace NewWallet

/-- What comes of a request, by the wallets that there are, the id that the mint has, if any, and the
time: a new wallet, or the first reason against it. -/
def made (r : NewWallet) (wallet? : WalletId → Option Wallet) (id? : Option WalletId)
    (time : Timestamp) : Result Wallet :=
  match r.check with
  | .error e => .error e
  | .ok user =>
    match id? with
    | none => .error (.internal "Ulid random bits would overflow")
    | some id =>
      if (wallet? id).isSome then .error .alreadyExists
      else .ok (Wallet.opened id user r.balance time)

/-- The mint after a request, by what it has to give. -/
def mintAfter (r : NewWallet) (mint : Mint) (next? : Option (WalletId × Mint)) : Mint :=
  match r.check with
  | .error _ => mint
  | .ok _ => (next?.map Prod.snd).getD mint

/-- The wallets with a new one among them, if there is one. -/
def joined (wallet? : WalletId → Option Wallet) : Result Wallet → WalletId → Option Wallet
  | .error _ => wallet?
  | .ok w => Function.update wallet? w.id (some w)

variable {r : NewWallet} {user : UserId} {e : LedgerError}

theorem made_of_error (hCheck : r.check = .error e) (wallet? : WalletId → Option Wallet)
    (id? : Option WalletId) (time : Timestamp) : r.made wallet? id? time = .error e := by
  unfold made
  rw [hCheck]

theorem made_of_none (hCheck : r.check = .ok user) (wallet? : WalletId → Option Wallet)
    (time : Timestamp) :
    r.made wallet? none time = .error (.internal "Ulid random bits would overflow") := by
  unfold made
  rw [hCheck]

theorem made_of_some (hCheck : r.check = .ok user) (wallet? : WalletId → Option Wallet)
    (id : WalletId) (time : Timestamp) :
    r.made wallet? (some id) time =
      if (wallet? id).isSome then .error .alreadyExists
      else .ok (Wallet.opened id user r.balance time) := by
  unfold made
  rw [hCheck]

theorem mintAfter_of_error (hCheck : r.check = .error e) (mint : Mint)
    (next? : Option (WalletId × Mint)) : r.mintAfter mint next? = mint := by
  unfold mintAfter
  rw [hCheck]

theorem mintAfter_of_ok (hCheck : r.check = .ok user) (mint : Mint)
    (next? : Option (WalletId × Mint)) :
    r.mintAfter mint next? = (next?.map Prod.snd).getD mint := by
  unfold mintAfter
  rw [hCheck]

end NewWallet

/-- The id that the mint has at the next reading of the clock, if any, with the mint after it. -/
def Ledger.nextId? (env : Surroundings) (l : Ledger) : Option (WalletId × Mint) :=
  l.mint.next? (l.wallTime env).toMillis.toNat (env.random l.readings)

/-- What comes of a request over a ledger. -/
def NewWallet.madeIn (r : NewWallet) (env : Surroundings) (l : Ledger) : Result Wallet :=
  r.made l.store.wallet? ((l.nextId? env).map Prod.fst) (l.read.wallTime env)

/-- The ledger before and after a request. -/
structure NewWallet.Leaves (r : NewWallet) (env : Surroundings) (l l' : Ledger) : Prop where
  now : l'.now = l.now
  keys : l'.keys = l.keys
  mint : l'.mint = r.mintAfter l.mint (l.nextId? env)
  wallets : l'.store.wallet? = joined l.store.wallet? (r.madeIn env l)

/-- A request that nothing comes of leaves the mint alone, unless its id is taken; and a wallet that is
made has the id that the mint had. -/
theorem NewWallet.madeIn_cases (r : NewWallet) (env : Surroundings) (l : Ledger) :
    (∃ e, r.madeIn env l = .error e ∧ r.mintAfter l.mint (l.nextId? env) = l.mint) ∨
      ∃ id mint, l.nextId? env = some (id, mint) ∧ r.mintAfter l.mint (l.nextId? env) = mint ∧
        ((l.store.wallet? id).isSome = true ∧ r.madeIn env l = .error .alreadyExists ∨
          ∃ w, r.madeIn env l = .ok w ∧ w.id = id) := by
  unfold madeIn
  cases hCheck : r.check with
  | error e => exact Or.inl ⟨e, made_of_error hCheck _ _ _, mintAfter_of_error hCheck _ _⟩
  | ok user =>
    rw [mintAfter_of_ok hCheck]
    cases l.nextId? env with
    | none => exact Or.inl ⟨_, made_of_none hCheck _ _, rfl⟩
    | some minted =>
      obtain ⟨id, mint⟩ := minted
      refine Or.inr ⟨id, mint, rfl, rfl, ?_⟩
      rw [Option.map_some, made_of_some hCheck]
      by_cases hTaken : (l.store.wallet? id).isSome = true
      · exact Or.inl ⟨hTaken, if_pos hTaken⟩
      · exact Or.inr ⟨_, if_neg hTaken, rfl⟩

/-- As far as ids ascend, the mint of a ledger is past all wallets. -/
def Ledger.Ahead (ms : Nat) (l : Ledger) : Prop :=
  ms < 1 <<< 48 → ∀ id, (l.store.wallet? id).isSome = true → id.val ≤ l.mint.previous.val

section Leaves

variable {r : NewWallet} {env : Surroundings} {l l' : Ledger} {ms : Nat}

/-- The mint stays past all wallets. -/
theorem NewWallet.Leaves.ahead (hLeaves : r.Leaves env l l')
    (hReading : (l.wallTime env).toMillis.toNat = ms) (hAhead : l.Ahead ms) : l'.Ahead ms := by
  intro hWithin
  have hBefore := hAhead hWithin
  rw [hLeaves.mint, hLeaves.wallets]
  obtain ⟨e, hMade, hMint⟩ | ⟨id, mint, hNext, hMint, hMade⟩ := r.madeIn_cases env l
  · rw [hMade, hMint]
    exact hBefore
  · rw [hMint]
    unfold Ledger.nextId? at hNext
    rw [hReading] at hNext
    obtain ⟨hLess, hPrevious⟩ := Mint.lt_of_next? hWithin hNext
    rw [hPrevious]
    intro x hThere
    rcases hMade with ⟨-, hTaken⟩ | ⟨w, hNew, rfl⟩
    · rw [hTaken] at hThere
      exact Nat.le_of_lt (Nat.lt_of_le_of_lt (hBefore x hThere) hLess)
    · rw [hNew, joined] at hThere
      by_cases hx : x = w.id
      · rw [hx]
      · rw [Function.update_of_ne hx] at hThere
        exact Nat.le_of_lt (Nat.lt_of_le_of_lt (hBefore x hThere) hLess)

/-- A request that nothing comes of leaves the ids to come, if the mint is past all wallets. -/
theorem NewWallet.Leaves.same_mint {e : LedgerError} (hLeaves : r.Leaves env l l')
    (hReading : (l.wallTime env).toMillis.toNat = ms) (hAhead : l.Ahead ms)
    (hRefused : r.madeIn env l = .error e) : Mint.Same ms l.mint l'.mint := by
  rw [hLeaves.mint]
  obtain ⟨-, -, hMint⟩ | ⟨id, mint, hNext, hMint, hMade⟩ := r.madeIn_cases env l
  · rw [hMint]
    exact fun _ => rfl
  · rcases hMade with ⟨hThere, -⟩ | ⟨w, hNew, -⟩
    · -- only an id that does not ascend can be taken
      refine Mint.same_of_beyond (Nat.not_lt.mp fun hWithin => ?_) _ _
      unfold Ledger.nextId? at hNext
      rw [hReading] at hNext
      obtain ⟨hLess, -⟩ := Mint.lt_of_next? hWithin hNext
      exact Nat.not_lt.mpr (hAhead hWithin id hThere) hLess
    · cases hRefused.symm.trans hNew

end Leaves

-- ---------------------------------------------------------------------------
-- Creations that are run to their ends
-- ---------------------------------------------------------------------------

open Store

variable {l : Ledger} {request : NewWallet}

namespace Ledger

/-- A new wallet is stored unless its id is taken. -/
theorem drive_storing (hFree : l.Unhindered) (request : NewWallet) (user : UserId) (id : WalletId)
    (now : Timestamp) (env : Surroundings) (a : Agent) (woken : List Agent) :
    let made : Result Wallet :=
      if (l.store.wallet? id).isSome then .error .alreadyExists
      else .ok (Wallet.opened id user request.balance now)
    ∃ l', l.drive env a (request.storing user id now) woken =
        .ended (made.map Reply.wallet) l' (woken ++ []) ∧
      l'.now = l.now ∧ l'.keys = l.keys ∧ l'.mint = l.mint ∧
      l'.store.wallet? = NewWallet.joined l.store.wallet? made := by
  intro made
  obtain ⟨journal, hPerform⟩ :=
    hFree.exists_perform env a (.insert (Wallet.opened id user request.balance now))
  unfold NewWallet.storing
  cases hInsert : l.store.insert (Wallet.opened id user request.balance now) with
  | ok store =>
    simp only [execute, hInsert] at hPerform
    obtain ⟨hNew, hWallets⟩ := wallet?_insert hInsert
    have hMade : made = .ok (Wallet.opened id user request.balance now) := by
      have hNone : l.store.wallet? id = none := hNew
      simp only [made, hNone, Option.isSome_none, Bool.false_eq_true, if_false]
    rw [drive_replied hPerform, hMade]
    exact ⟨_, rfl, rfl, rfl, rfl, hWallets⟩
  | error e =>
    simp only [execute, hInsert] at hPerform
    obtain ⟨rfl, hThere⟩ := insert_eq_error hInsert
    have hMade : made = .error .alreadyExists := if_pos hThere
    rw [drive_replied hPerform, hMade]
    exact ⟨_, rfl, rfl, rfl, rfl, rfl⟩

/-- An id is minted, unless the millisecond is used up. -/
theorem perform_newId (hFree : l.Unhindered) (env : Surroundings) (a : Agent) :
    ∃ answer l', l.perform env a .newId = .replied answer l' [] ∧ l'.now = l.now ∧
      l'.keys = l.keys ∧ l'.store = l.store ∧ l'.failing = l.failing ∧
      l'.readings = l.readings + 1 ∧
      match l.nextId? env with
      | none => answer = .error (.internal "Ulid random bits would overflow") ∧ l'.mint = l.mint
      | some (id, mint) => answer = .ok id ∧ l'.mint = mint := by
  obtain ⟨journal, hPerform⟩ := hFree.exists_perform env a .newId
  simp only [execute] at hPerform
  unfold nextId?
  cases hNext : l.mint.next? (l.wallTime env).toMillis.toNat (env.random l.readings) with
  | none =>
    have hSame : Mint.next? { l with journal }.mint ({ l with journal }.wallTime env).toMillis.toNat
        (env.random { l with journal }.readings) = none := hNext
    rw [hSame] at hPerform
    exact ⟨_, _, hPerform, rfl, rfl, rfl, rfl, rfl, rfl, rfl⟩
  | some minted =>
    have hSame : Mint.next? { l with journal }.mint ({ l with journal }.wallTime env).toMillis.toNat
        (env.random { l with journal }.readings) = some minted := hNext
    rw [hSame] at hPerform
    exact ⟨_, _, hPerform, rfl, rfl, rfl, rfl, rfl, rfl, rfl⟩

/-- What comes of a creation. -/
theorem drive_creation (hFree : l.Unhindered) (request : NewWallet) (env : Surroundings) (a : Agent) :
    ∃ l' woken, l.drive env a (creation (some request)) [] =
        .ended ((request.madeIn env l).map Reply.wallet) l' woken ∧
      request.Leaves env l l' := by
  rw [creation_some]
  cases hCheck : request.check with
  | error e =>
    have hMade : request.madeIn env l = .error e := NewWallet.made_of_error hCheck _ _ _
    rw [hMade]
    refine ⟨l, [], rfl, rfl, rfl, (NewWallet.mintAfter_of_error hCheck _ _).symm, ?_⟩
    rw [hMade]
    rfl
  | ok user =>
    have hMint := NewWallet.mintAfter_of_ok hCheck l.mint (l.nextId? env)
    obtain ⟨answer, l₁, hId, hNow₁, hKeys₁, hStore₁, hFailing₁, hReadings₁, hMinted⟩ :=
      perform_newId hFree env a
    simp only [drive_replied hId]
    cases hNext : l.nextId? env with
    | none =>
      rw [hNext] at hMint hMinted
      obtain ⟨rfl, hMint₁⟩ := hMinted
      have hMade : request.madeIn env l = .error (.internal "Ulid random bits would overflow") := by
        unfold NewWallet.madeIn
        rw [hNext]
        exact NewWallet.made_of_none hCheck _ _
      rw [hMade]
      refine ⟨l₁, _, rfl, hNow₁, hKeys₁, ?_, ?_⟩
      · rw [hNext, hMint, hMint₁]
        rfl
      · rw [hMade, hStore₁]
        rfl
    | some minted =>
      obtain ⟨id, mint⟩ := minted
      rw [hNext] at hMint hMinted
      obtain ⟨rfl, hMint₁⟩ := hMinted
      have hMade := NewWallet.made_of_some hCheck l.store.wallet? id (l.read.wallTime env)
      have hIn : request.madeIn env l =
          request.made l.store.wallet? (some id) (l.read.wallTime env) := by
        unfold NewWallet.madeIn
        rw [hNext]
        rfl
      -- the time is read once the id is there
      have hFree₁ := hFree.of_eq hFailing₁ (congrArg Store.armed hStore₁)
      obtain ⟨journal, hClock⟩ := hFree₁.exists_perform env a .readClock
      have hTime : ({ l₁ with journal } : Ledger).wallTime env = l.read.wallTime env := by
        show env.wall l₁.readings = env.wall (l.readings + 1)
        rw [hReadings₁]
      simp only [execute, hTime] at hClock
      simp only [drive_replied hClock]
      have hFree₂ : ({ l₁ with journal } : Ledger).read.Unhindered := ⟨hFree₁.failing, hFree₁.armed⟩
      obtain ⟨l', hDrive, hNow, hKeys, hMint', hWallets⟩ :=
        drive_storing hFree₂ request user id (l.read.wallTime env) env a ([] ++ [] ++ [])
      rw [show ({ l₁ with journal } : Ledger).read.store = l.store from hStore₁, ← hMade, ← hIn]
        at hDrive hWallets
      refine ⟨l', _, hDrive, hNow.trans hNow₁, hKeys.trans hKeys₁, ?_, hWallets⟩
      rw [hNext, hMint, hMint', ← hMint₁]
      rfl

end Ledger

/-- What comes of a creation, whoever else is at work. -/
theorem Schedule.execute_creation {s : Schedule} (hFree : s.ledger.Unhindered)
    (request : NewWallet) (env : Surroundings) (deadline : Option Instant) :
    ∃ s', s.execute env (creation (some request)) deadline =
        (s', .result ((request.madeIn env s.ledger).map Reply.wallet), []) ∧
      request.Leaves env s.ledger s'.ledger := by
  obtain ⟨l', woken, hDrive, hLeaves⟩ := s.ledger.drive_creation hFree request env s.nextAgent
  exact ⟨_, execute_of_drive hDrive, hLeaves⟩

end Purse
