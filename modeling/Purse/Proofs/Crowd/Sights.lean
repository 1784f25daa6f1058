import Purse.Proofs.Crowd.Deferral
import Purse.Proofs.Keys.Answers

/-!
# What an agent by itself sees

All that can matter to an agent that is the only one at work in a ledger: the wallets that it is shown
and the committed ones, the updates armed to fail, the keys, the mint and the clock (`Sight`). What it is
answered, and what it sees then, follows from what it sees before (`Call.Comes`), whatever else is in the
ledger.

## Results

* `AtWork.served_lock`, `AtWork.served_add` and their like: what comes of a call of an agent by itself,
  one lemma for each call.
* `AtWork.perform`: an agent by itself does not have to wait.
-/

namespace Purse

open Store

/-- What an agent sees of a ledger. -/
structure Sight where
  shown : WalletId → Option Wallet
  wallet? : WalletId → Option Wallet
  armed : List WalletId
  keys : Keys
  mint : Mint
  now : Instant

/-- What an agent sees of a ledger. -/
def Ledger.sight (l : Ledger) (a : Agent) : Sight :=
  ⟨(l.store.view a).shown?, l.store.wallet?, l.store.armed, l.keys, l.mint, l.now⟩

/-- What an agent by itself is answered, by what it sees, and what it sees then. -/
inductive Call.Comes (v : Sight) : (c : Call) → Result c.Answer → Sight → Prop
  | begin : Comes v .begin (.ok ()) { v with shown := v.wallet? }
  | commit : Comes v .commit (.ok ()) { v with wallet? := v.shown }
  | rollback : Comes v .rollback (.ok ()) { v with shown := v.wallet? }
  | lock (id : WalletId) (user : UserId) :
      Comes v (.lock id user) (.ok ((v.shown id).filter (·.isOwnedBy user))) v
  /-- An update that is armed fails once. -/
  | strike {id : WalletId} {amount : Decimal} (hArmed : id ∈ v.armed) :
      Comes v (.addWithin id amount) (.error (armedFailure id))
        { v with armed := v.armed.filter (· ≠ id) }
  | addWithin {id : WalletId} {amount : Decimal} {now : Timestamp}
      {shown : WalletId → Option Wallet} (hArmed : id ∉ v.armed)
      (hAdds : Adds id amount v.shown shown (Wallet.added (v.shown id) amount now)) :
      Comes v (.addWithin id amount) (Wallet.added (v.shown id) amount now) { v with shown }
  | add {id : WalletId} {amount : Decimal} {now : Timestamp} {wallet? : WalletId → Option Wallet}
      (hAdds : Adds id amount v.wallet? wallet? (Wallet.added (v.wallet? id) amount now)) :
      Comes v (.add id amount) (Wallet.added (v.wallet? id) amount now)
        { v with shown := wallet?, wallet? }
  | claim {key : String} {inUse : Bool} {keys : Keys}
      (hClaim : v.keys.claim v.now key = .ok (inUse, keys)) :
      Comes v (.claim key) (.ok inUse) { v with keys }
  | release (key : String) : Comes v (.release key) (.ok ()) { v with keys := v.keys.release key }

/-- A call on wallets that there are, or on keys. -/
def Call.isLocal : Call → Bool
  | .begin | .commit | .rollback | .lock _ _ | .addWithin _ _ | .add _ _ | .claim _ | .release _ =>
    true
  | .insert _ | .get _ | .list _ | .newId | .readClock => false

/-- An agent is the only one at work in a ledger in which no call is arranged to fail. -/
structure AtWork (a : Agent) (isOpen : Bool) (l : Ledger) : Prop where
  solo : Solo a l.store
  failing : ∀ m, l.failing.get? m = none
  closed : isOpen = false → l.store.copies a = []

variable {env : Surroundings} {a : Agent} {isOpen : Bool} {l l' : Ledger}

theorem Ledger.sight_of_nil (hCopies : l.store.copies a = []) :
    l.sight a = ⟨l.store.wallet?, l.store.wallet?, l.store.armed, l.keys, l.mint, l.now⟩ := by
  unfold sight
  rw [View.shown?_of_nil hCopies]
  rfl

namespace AtWork

/-- The store is left, and the keys, to the agent by itself. -/
theorem of_resting (hResting : l.store.Resting) (hFailing : ∀ m, l.failing.get? m = none)
    (a : Agent) : AtWork a false l :=
  ⟨.of_resting hResting a, hFailing, fun _ => hResting.idle a⟩

theorem resting (hWork : AtWork a false l) : l.store.Resting :=
  hWork.solo.resting (hWork.closed rfl)

/-- What a call comes to: it is answered, or it is the claim of a key that would end where no instant
lies. -/
def Served (env : Surroundings) (a : Agent) (isOpen : Bool) (l : Ledger) (c : Call) : Prop :=
  (∃ answer l' woken, l.perform env a c = .replied answer l' woken ∧
    AtWork a (c.leavesOpen isOpen answer) l' ∧ c.Comes (l.sight a) answer (l'.sight a)) ∨
  ∃ key fault l', c = .claim key ∧ l.keys.claim l.now key = .error fault ∧
    l.perform env a c = .faulted fault l' ∧ AtWork a isOpen l' ∧ l'.sight a = l.sight a

/-- A transaction that ends leaves no copies. -/
theorem served_ending {c : Call} {answer : Result c.Answer} {woken : List Agent} {s : Store}
    {journal : List JournalEntry} (hWork : AtWork a isOpen l)
    (hPerform : l.perform env a c = .replied answer { l with journal, store := s } woken)
    (hMoves : Moves a true (none, l.store) (none, s)) (hNone : s.copies a = [])
    (hComes : c.Comes (l.sight a) answer ⟨s.wallet?, s.wallet?, s.armed, l.keys, l.mint, l.now⟩) :
    Served env a isOpen l c := by
  refine Or.inl ⟨answer, _, woken, hPerform,
    ⟨hWork.solo.of_moves _ hMoves, hWork.failing, fun _ => hNone⟩, ?_⟩
  rw [Ledger.sight_of_nil (show ({ l with journal, store := s } : Ledger).store.copies a = [] from
    hNone)]
  exact hComes

theorem served_begin (hWork : AtWork a false l) (env : Surroundings) :
    Served env a false l .begin := by
  obtain ⟨journal, hPerform⟩ := Ledger.exists_perform_of_failing hWork.failing env a .begin
  have hOpened : (l.store.begin a).copies a = [] := by rw [copies_begin, if_pos rfl]
  exact hWork.served_ending hPerform (.single (.begin (hWork.closed rfl))) hOpened .begin

/-- What the agent was shown is committed. -/
theorem served_commit (hWork : AtWork a isOpen l) (env : Surroundings) :
    Served env a isOpen l .commit := by
  obtain ⟨journal, hPerform⟩ := Ledger.exists_perform_of_failing hWork.failing env a .commit
  have hSeen : (l.store.commit a).1.view a = ⟨[], (l.sight a).shown⟩ :=
    view_commit hWork.solo.coherent
  refine hWork.served_ending hPerform (.single (.commit rfl)) (congrArg View.copies hSeen) ?_
  rw [show (l.store.commit a).1.wallet? = (l.sight a).shown from congrArg View.wallet? hSeen,
    (l.store.keeps_commit a).armed]
  exact .commit

/-- What was committed is left. -/
theorem served_rollback (hWork : AtWork a isOpen l) (env : Surroundings) :
    Served env a isOpen l .rollback := by
  obtain ⟨journal, hPerform⟩ := Ledger.exists_perform_of_failing hWork.failing env a .rollback
  have hSeen : (l.store.drop a).1.view a = ⟨[], l.store.wallet?⟩ :=
    view_drop hWork.solo.coherent.nodup
  refine hWork.served_ending hPerform (.single .drop) (congrArg View.copies hSeen) ?_
  rw [show (l.store.drop a).1.wallet? = l.store.wallet? from congrArg View.wallet? hSeen,
    (l.store.keeps_drop a).armed]
  exact .rollback

/-- A row is locked, and nothing else is seen of it. -/
theorem served_lock (hWork : AtWork a true l) (id : WalletId) (user : UserId)
    (env : Surroundings) : Served env a true l (.lock id user) := by
  obtain ⟨journal, hPerform⟩ := Ledger.exists_ofStep_lock hWork.failing id user env a
  obtain ⟨s, hLock, hSolo, hKeeps, hWallets, hShown⟩ := hWork.solo.locks id user
  rw [hLock] at hPerform
  have hSight : ({ l with journal, store := s } : Ledger).sight a = l.sight a := by
    unfold Ledger.sight
    rw [hShown, hWallets, hKeeps.armed]
  refine Or.inl ⟨_, _, _, hPerform, ⟨hSolo, hWork.failing, fun hClosed => nomatch hClosed⟩, ?_⟩
  rw [hSight]
  exact .lock id user

/-- An update within a transaction fails if it is armed, and else the agent sees what comes of it. -/
theorem served_addWithin (hWork : AtWork a true l) (id : WalletId) (amount : Decimal)
    (env : Surroundings) : Served env a true l (.addWithin id amount) := by
  obtain ⟨journal, hPerform⟩ := Ledger.exists_ofStep_addWithin hWork.failing id amount env a
  by_cases hArmed : id ∈ l.store.armed
  · rw [addWithin, if_pos hArmed] at hPerform
    have hAside : Moves a false (none, l.store)
        (none, { l.store with armed := l.store.armed.filter (· ≠ id) }) :=
      .single (.aside rfl rfl)
    exact Or.inl ⟨_, _, _, hPerform,
      ⟨hWork.solo.of_moves _ hAside, hWork.failing, fun hClosed => nomatch hClosed⟩,
      .strike hArmed⟩
  · obtain ⟨s, hAdd, hSolo, hKeeps, hWallets, hAdds⟩ :=
      hWork.solo.addsWithin hArmed amount (l.wallTime env)
    rw [hAdd] at hPerform
    have hSight : ({ l.read with journal, store := s } : Ledger).sight a =
        { l.sight a with shown := (s.view a).shown? } := by
      unfold Ledger.sight
      rw [hWallets, hKeeps.armed]
      rfl
    refine Or.inl ⟨_, _, _, hPerform, ⟨hSolo, hWork.failing, fun hClosed => nomatch hClosed⟩, ?_⟩
    rw [hSight]
    exact .addWithin hArmed hAdds

/-- Outside of a transaction an update is there for all to see. -/
theorem served_add (hWork : AtWork a false l) (id : WalletId) (amount : Decimal)
    (env : Surroundings) : Served env a false l (.add id amount) := by
  obtain ⟨journal, hPerform⟩ := Ledger.exists_ofStep_add hWork.failing id amount env a
  obtain ⟨s, woken, hAdd, hResting, hKeeps, hAdds⟩ :=
    hWork.resting.adds a id amount (l.wallTime env)
  rw [hAdd] at hPerform
  have hSight : ({ l.read with journal, store := s } : Ledger).sight a =
      { l.sight a with shown := s.wallet?, wallet? := s.wallet? } := by
    rw [Ledger.sight_of_nil (hResting.idle a)]
    show Sight.mk _ _ s.armed _ _ _ = _
    rw [hKeeps.armed]
    rfl
  refine Or.inl ⟨_, _, _, hPerform,
    ⟨.of_resting hResting a, hWork.failing, fun _ => hResting.idle a⟩, ?_⟩
  rw [hSight]
  exact .add hAdds

/-- A key is claimed, unless the claim would end where no instant lies. -/
theorem served_claim (hWork : AtWork a isOpen l) (key : String) (env : Surroundings) :
    Served env a isOpen l (.claim key) := by
  obtain ⟨journal, hPerform⟩ := Ledger.exists_perform_claim hWork.failing key env a
  cases hClaim : l.keys.claim l.now key with
  | ok answered =>
    rw [hClaim] at hPerform
    exact Or.inl ⟨_, _, _, hPerform, ⟨hWork.solo, hWork.failing, hWork.closed⟩, .claim hClaim⟩
  | error fault =>
    rw [hClaim] at hPerform
    exact Or.inr ⟨key, fault, _, rfl, hClaim, hPerform,
      ⟨hWork.solo, hWork.failing, hWork.closed⟩, rfl⟩

theorem served_release (hWork : AtWork a isOpen l) (key : String) (env : Surroundings) :
    Served env a isOpen l (.release key) := by
  obtain ⟨journal, hPerform⟩ :=
    Ledger.exists_perform_of_failing hWork.failing env a (.release key)
  exact Or.inl ⟨_, _, _, hPerform, ⟨hWork.solo, hWork.failing, hWork.closed⟩, .release key⟩

/-- An agent by itself does not have to wait for any call on wallets that there are, or on keys. -/
theorem perform {c : Call} (hWork : AtWork a isOpen l) (hFits : c.fits isOpen = true)
    (hLocal : c.isLocal = true) (env : Surroundings) : Served env a isOpen l c := by
  cases c with
  | begin =>
    cases isOpen with
    | false => exact hWork.served_begin env
    | true => cases hFits
  | commit => exact hWork.served_commit env
  | rollback => exact hWork.served_rollback env
  | lock id user =>
    cases isOpen with
    | true => exact hWork.served_lock id user env
    | false => cases hFits
  | addWithin id amount =>
    cases isOpen with
    | true => exact hWork.served_addWithin id amount env
    | false => cases hFits
  | add id amount =>
    cases isOpen with
    | false => exact hWork.served_add id amount env
    | true => cases hFits
  | claim key => exact hWork.served_claim key env
  | release key => exact hWork.served_release key env
  | insert | get | list | newId | readClock => cases hLocal

end AtWork

end Purse
