import Purse.Proofs.Crowd.Alone
import Purse.Proofs.Crowd.TransferVerdict

/-!
# Transactions as deferred updates

There are two ways of adding to balances. One adds to each row at once (`Store.add`); the other one works
on copies within a transaction, and publishes them at its end (`Store.addWithin`, `Store.commit`). Over
wallets that nobody else is at work on they come to the same: what is asked for in a transaction is
answered as it would be at once, and the commit leaves the balances that the direct way leaves. Until
then nobody outside sees a change, and a transaction that is dropped leaves no trace.

## Definitions

* `Posting`: an amount to add, or a wallet to read.
* `Posting.within`, `Posting.direct`: what comes of it in a transaction, and at once.
* `Store.post?`: what comes of one posting after another.
* `Deferred`: a transaction stands where the direct way stands.

## Results

* `Deferred.next`, `Deferred.exists_post`: transaction and direct way go along with each other.
* `Store.Resting.deferred`: a transaction is the direct way, deferred.
-/

namespace Purse

-- ---------------------------------------------------------------------------
-- Postings
-- ---------------------------------------------------------------------------

/-- What is asked for, one after another, in a transaction or at once. -/
inductive Posting where
  /-- An amount is added to the balance of a wallet. -/
  | add (id : WalletId) (amount : Decimal)
  /-- The wallet of a user is read, under its lock if this is in a transaction. -/
  | read (id : WalletId) (user : UserId)
  deriving DecidableEq, Repr

/-- What a posting is answered. -/
inductive Posting.Answer where
  | added (result : Result Unit)
  | shown (result : Result (Option Wallet))
  deriving DecidableEq

/-- The answer of a call and the store that it leaves, unless the call has to wait. -/
def Store.Step.answered? {α : Type} : Store.Step α → Option (Result α × Store)
  | .replied answer s _ => some (answer, s)
  | .waiting _ _ => none

namespace Posting

/-- What comes of a posting within the transaction of an agent. -/
def within (a : Agent) (s : Store) (now : Timestamp) : Posting → Option (Answer × Store)
  | add id amount => (s.addWithin a id amount now).answered?.map fun (r, s) => (.added r, s)
  | read id user => (s.lock a id user).answered?.map fun (r, s) => (.shown r, s)

/-- What comes of a posting that an agent makes at once. -/
def direct (a : Agent) (s : Store) (now : Timestamp) : Posting → Option (Answer × Store)
  | add id amount => (s.add a id amount now).answered?.map fun (r, s) => (.added r, s)
  | read id user => some (.shown (.ok ((s.wallet? id).filter (·.isOwnedBy user))), s)

/-- Two answers are the same, but for the times at which the wallets in them were changed. -/
inductive Answer.Alike : Answer → Answer → Prop
  | added (r : Result Unit) : Alike (.added r) (.added r)
  | shown {w? v? : Option Wallet} (hSame : Option.Rel Wallet.Alike w? v?) :
      Alike (.shown (.ok w?)) (.shown (.ok v?))

end Posting

namespace Store

/-- What comes of one posting after another, each with the store after it, unless one has to wait. The
times are those at which they are made. -/
def post? (make : Store → Timestamp → Posting → Option (Posting.Answer × Store))
    (times : Nat → Timestamp) (s : Store) :
    List Posting → Option (List (Posting.Answer × Store))
  | [] => some []
  | p :: ps =>
    match make s (times 0) p with
    | none => none
    | some (answer, s) =>
      (post? make (fun n => times (n + 1)) s ps).map fun account => (answer, s) :: account

/-- The store after an account of postings. -/
def closing (s : Store) (account : List (Posting.Answer × Store)) : Store :=
  account.foldl (fun _ entry => entry.2) s

end Store

-- ---------------------------------------------------------------------------
-- Wallets that differ in their times
-- ---------------------------------------------------------------------------

namespace Wallet

/-- An amount is added unless there is a reason against it. -/
theorem added_some (w : Wallet) (amount : Decimal) (now : Timestamp) :
    added (some w) amount now =
      match w.refusal? amount with
      | some e => .error e
      | none => .ok () := by
  obtain ⟨e, hRefusal, hAdjust⟩ | ⟨hRefusal, sum, -, hAdjust⟩ := w.adjust_cases amount now
  · rw [hRefusal]
    exact added_eq_error_iff.mpr hAdjust
  · rw [hRefusal]
    exact added_eq_ok hAdjust

/-- Wallets that differ in their times only take the same amounts. -/
theorem added_congr {w? v? : Option Wallet} (hSame : Option.Rel Alike w? v?) (amount : Decimal)
    (now later : Timestamp) : added v? amount later = added w? amount now := by
  cases hSame with
  | none => rfl
  | some hAlike => rw [added_some, added_some, hAlike.refusal?_eq]

/-- And they belong to the same users. -/
theorem rel_filter_isOwnedBy {w? v? : Option Wallet} (hSame : Option.Rel Alike w? v?)
    (user : UserId) :
    Option.Rel Alike (w?.filter (·.isOwnedBy user)) (v?.filter (·.isOwnedBy user)) := by
  cases hSame with
  | none => exact .none
  | some hAlike =>
    rw [Option.filter_some, Option.filter_some, hAlike.isOwnedBy_eq]
    split
    · exact .some hAlike
    · exact .none

end Wallet

-- ---------------------------------------------------------------------------
-- A transaction goes along with the direct way
-- ---------------------------------------------------------------------------

/-- What an amount that is added to a wallet, or refused, makes of the wallets. -/
def Adds (id : WalletId) (amount : Decimal) (wallet? wallet?' : WalletId → Option Wallet) :
    Result Unit → Prop
  | .ok _ => ∃ w w' now, wallet? id = some w ∧ w.adjust amount now = .ok w' ∧
    wallet?' = Function.update wallet? id (some w')
  | .error _ => wallet?' = wallet?

/-- An amount that is added to alike wallets, or refused by both, leaves any two alike that were. -/
theorem Adds.rel {id x : WalletId} {amount : Decimal} {r : Result Unit}
    {wallet? wallet?' other? other?' : WalletId → Option Wallet}
    (hAdds : Adds id amount wallet? wallet?' r) (hAdds' : Adds id amount other? other?' r)
    (hThere : Option.Rel Wallet.Alike (wallet? id) (other? id))
    (hAlike : Option.Rel Wallet.Alike (wallet? x) (other? x)) :
    Option.Rel Wallet.Alike (wallet?' x) (other?' x) := by
  cases r with
  | error e =>
    obtain rfl : wallet?' = wallet? := hAdds
    obtain rfl : other?' = other? := hAdds'
    exact hAlike
  | ok u =>
    obtain ⟨w, w', now, hWallet, hAdjust, rfl⟩ := hAdds
    obtain ⟨v, v', later, hOther, hAdjust', rfl⟩ := hAdds'
    by_cases hx : x = id
    · subst hx
      rw [hWallet, hOther] at hThere
      obtain hSame : w.Alike v := by
        cases hThere with
        | some hSame => exact hSame
      obtain ⟨u', hLater, hSame'⟩ := hSame.adjust_ok hAdjust later
      obtain rfl : u' = v' := Except.ok.inj (hLater.symm.trans hAdjust')
      rw [Function.update_self, Function.update_self]
      exact .some hSame'
    · rw [Function.update_of_ne hx, Function.update_of_ne hx]
      exact hAlike

namespace Solo

open Store

variable {a : Agent} {s : Store}

/-- A wallet is read in a transaction as it is shown, which changes nothing that is shown. -/
theorem locks (hSolo : Solo a s) (id : WalletId) (user : UserId) :
    ∃ s', s.lock a id user =
        .replied (.ok (((s.view a).shown? id).filter (·.isOwnedBy user))) s' [] ∧
      Solo a s' ∧ s.Keeps s' ∧ s'.wallet? = s.wallet? ∧
      (s'.view a).shown? = (s.view a).shown? := by
  obtain ⟨s', hLock, hKeeps⟩ := hSolo.exists_lock id user
  have hMoves : Moves a false (none, s) ((s.lock a id user).row?, (s.lock a id user).store) :=
    lock_moves
  have hTold : (s.lock a id user).Told (.lock id user) (s.view a) a := lock_told
  rw [hLock] at hMoves hTold
  have hWallets : s'.wallet? = s.wallet? := funext (Moves.wallet?_eq hMoves hSolo.coherent rfl)
  exact ⟨s', hLock, hSolo.of_moves _ hMoves, hKeeps, hWallets,
    Told.shown?_lock hTold hWallets (id_of_shown? hSolo.coherent.keyed)⟩

/-- An amount is added in a transaction to what is shown, and nowhere else. -/
theorem addsWithin {id : WalletId} (hSolo : Solo a s) (hArmed : id ∉ s.armed) (amount : Decimal)
    (now : Timestamp) :
    ∃ s', s.addWithin a id amount now =
        .replied (Wallet.added ((s.view a).shown? id) amount now) s' [] ∧
      Solo a s' ∧ s.Keeps s' ∧ s'.wallet? = s.wallet? ∧
      Adds id amount (s.view a).shown? (s'.view a).shown?
        (Wallet.added ((s.view a).shown? id) amount now) := by
  have hKeyed : ∀ {x w}, (s.view a).shown? x = some w → w.id = x :=
    id_of_shown? hSolo.coherent.keyed
  obtain ⟨s', hAdd, hKeeps⟩ := hSolo.exists_addWithin hArmed amount now
  have hMoves : Moves a false (none, s)
      ((s.addWithin a id amount now).row?, (s.addWithin a id amount now).store) :=
    addWithin_moves hSolo.coherent.keyed
  have hTold : (s.addWithin a id amount now).Told (.addWithin id amount) (s.view a) a :=
    addWithin_told hSolo.coherent.keyed
  rw [hAdd] at hMoves hTold
  have hWallets : s'.wallet? = s.wallet? := funext (Moves.wallet?_eq hMoves hSolo.coherent rfl)
  refine ⟨s', hAdd, hSolo.of_moves _ hMoves, hKeeps, hWallets, ?_⟩
  cases hAnswer : Wallet.added ((s.view a).shown? id) amount now with
  | ok u =>
    rw [hAnswer] at hTold
    exact Told.shown?_addWithin_ok hTold hWallets hKeyed
  | error e =>
    rw [hAnswer] at hTold
    exact Told.shown?_addWithin_error hTold hWallets hKeyed

end Solo

/-- An amount is added at once to a wallet of a store in which nobody is at work. -/
theorem Store.Resting.adds {s : Store} (hResting : s.Resting) (b : Agent) (id : WalletId)
    (amount : Decimal) (now : Timestamp) :
    ∃ s' woken, s.add b id amount now =
        .replied (Wallet.added (s.wallet? id) amount now) s' woken ∧
      s'.Resting ∧ s.Keeps s' ∧
      Adds id amount s.wallet? s'.wallet? (Wallet.added (s.wallet? id) amount now) := by
  have hSolo := Solo.of_resting hResting b
  have hNew : id ∉ s.locked b := by
    rw [locked, hResting.idle]
    exact List.not_mem_nil
  obtain ⟨s', woken, hAdd, hKeeps⟩ := hSolo.exists_add hNew amount now
  have hMoves : Moves b (s.add b id amount now).succeeded (none, s)
      ((s.add b id amount now).row?, (s.add b id amount now).store) :=
    add_moves hResting.keyed hNew
  have hTold : (s.add b id amount now).Told (.add id amount) (s.view b) b :=
    add_told hResting.keyed hNew
  rw [hAdd] at hMoves hTold
  have hSolo' := hSolo.of_moves _ hMoves
  refine ⟨s', woken, hAdd, ?_⟩
  cases hAnswer : Wallet.added (s.wallet? id) amount now with
  | ok u =>
    rw [hAnswer] at hTold
    obtain ⟨hCopies, w, w', later, hWallet, hAdjust, hWallets⟩ := hTold
    exact ⟨hSolo'.resting (hCopies.trans (hResting.idle b)), hKeeps, w, w', later, hWallet, hAdjust,
      hWallets⟩
  | error e =>
    rw [hAnswer] at hTold hMoves
    exact ⟨hSolo'.resting (hTold.trans (hResting.idle b)), hKeeps,
      funext (Moves.wallet?_eq hMoves hSolo.coherent rfl)⟩

/-- The transaction of an agent over the wallets of a store, and the direct way over the same wallets:
what the transaction shows of the wallets is what the direct way has made of them, and nobody outside
has seen any of it. -/
structure Deferred (a : Agent) (base d s : Store) : Prop where
  resting : d.Resting
  solo : Solo a s
  keeps : base.Keeps s
  armed : s.armed = []
  wallets : s.wallet? = base.wallet?
  shown : WalletsAlike d.wallet? (s.view a).shown?

namespace Deferred

open Store

variable {a b : Agent} {base d s : Store}

/-- A posting is answered alike both ways, and the two stay together. -/
theorem next (hDeferred : Deferred a base d s) (p : Posting) (b : Agent) (now later : Timestamp) :
    ∃ answer d' answer' s', p.direct b d now = some (answer, d') ∧
      p.within a s later = some (answer', s') ∧ answer.Alike answer' ∧
      Deferred a base d' s' := by
  obtain ⟨hResting, hSolo, hKeeps, hArmed, hWallets, hShown⟩ := hDeferred
  cases p with
  | add id amount =>
    obtain ⟨d', woken, hDirect, hResting', -, hAdds⟩ := hResting.adds b id amount now
    have hNone : id ∉ s.armed := by
      rw [hArmed]
      exact List.not_mem_nil
    obtain ⟨s', hWithin, hSolo', hKeeps', hWallets', hAdds'⟩ := hSolo.addsWithin hNone amount later
    rw [Wallet.added_congr (hShown id) amount now later] at hWithin hAdds'
    generalize Wallet.added (d.wallet? id) amount now = result at *
    refine ⟨.added result, d', .added result, s', ?_, ?_, .added result, hResting', hSolo',
      hKeeps.trans hKeeps', hKeeps'.armed.trans hArmed, hWallets'.trans hWallets,
      fun x => hAdds.rel hAdds' (hShown id) (hShown x)⟩
    · rw [Posting.direct, hDirect]
      rfl
    · rw [Posting.within, hWithin]
      rfl
  | read id user =>
    obtain ⟨s', hLock, hSolo', hKeeps', hWallets', hShown'⟩ := hSolo.locks id user
    refine ⟨_, d, _, s', rfl, ?_, .shown (Wallet.rel_filter_isOwnedBy (hShown id) user), hResting,
      hSolo', hKeeps.trans hKeeps', hKeeps'.armed.trans hArmed, hWallets'.trans hWallets, ?_⟩
    · rw [Posting.within, hLock]
      rfl
    · rw [hShown']
      exact hShown

/-- So are any postings, and no reader outside the transaction sees anything of them. -/
theorem exists_post (hDeferred : Deferred a base d s) (ps : List Posting) (b : Agent)
    (times times' : Nat → Timestamp) :
    ∃ account account', d.post? (Posting.direct b) times ps = some account ∧
      s.post? (Posting.within a) times' ps = some account' ∧
      List.Forall₂ Posting.Answer.Alike (account.map Prod.fst) (account'.map Prod.fst) ∧
      (∀ entry ∈ account', entry.2.wallet? = base.wallet? ∧ entry.2.wallets = base.wallets) ∧
      Deferred a base (d.closing account) (s.closing account') := by
  induction ps generalizing d s times times' with
  | nil => exact ⟨[], [], rfl, rfl, .nil, fun entry hMem => absurd hMem List.not_mem_nil, hDeferred⟩
  | cons p ps ih =>
    obtain ⟨answer, d', answer', s', hDirect, hWithin, hSame, hNext⟩ :=
      hDeferred.next p b (times 0) (times' 0)
    obtain ⟨account, account', hPost, hPost', hRest, hOutside, hClosing⟩ :=
      ih hNext (fun n => times (n + 1)) (fun n => times' (n + 1))
    refine ⟨(answer, d') :: account, (answer', s') :: account', ?_, ?_, .cons hSame hRest, ?_,
      hClosing⟩
    · simp only [post?, hDirect, hPost, Option.map_some]
    · simp only [post?, hWithin, hPost', Option.map_some]
    · intro entry hMem
      rcases List.mem_cons.mp hMem with rfl | hLater
      · refine ⟨hNext.wallets, ?_⟩
        rw [wallets_eq_filterMap, wallets_eq_filterMap, hNext.keeps.ids, hNext.wallets]
      · exact hOutside entry hLater

end Deferred

/-- A transaction is the direct way, deferred. Over a store in which nobody is at work and nothing is
armed to fail, whatever amounts and reads come one after another: they are answered in a transaction as
they are answered at once; no reader outside sees anything of the transaction; a commit leaves the
wallets that the direct way leaves, but for their times; and a drop leaves all rows as they were. -/
theorem Store.Resting.deferred {s : Store} (hResting : s.Resting) (hArmed : s.armed = [])
    (ps : List Posting) (a b : Agent) (times times' : Nat → Timestamp) :
    ∃ account account', s.post? (Posting.direct b) times ps = some account ∧
      (s.begin a).post? (Posting.within a) times' ps = some account' ∧
      List.Forall₂ Posting.Answer.Alike (account.map Prod.fst) (account'.map Prod.fst) ∧
      (∀ entry ∈ account', entry.2.wallet? = s.wallet? ∧ entry.2.wallets = s.wallets) ∧
      let d := s.closing account
      let t := (s.begin a).closing account'
      (t.commit a).1.Resting ∧ WalletsAlike d.wallet? (t.commit a).1.wallet? ∧
        (t.drop a).1.rows = s.rows := by
  have hBegun : Deferred a s s (s.begin a) := by
    have hSolo : Solo a (s.begin a) :=
      (Solo.of_resting hResting a).of_moves false (.single (.begin (hResting.idle a)))
    refine ⟨hResting, hSolo, ⟨rfl, rfl⟩, hArmed, rfl, ?_⟩
    have hCopies : ((s.begin a).view a).copies = [] := by
      show (s.begin a).copies a = []
      rw [copies_begin, if_pos rfl]
    rw [View.shown?_of_nil hCopies]
    exact .refl s.wallet?
  obtain ⟨account, account', hPost, hPost', hSame, hOutside, hClosing⟩ :=
    hBegun.exists_post ps b times times'
  refine ⟨account, account', hPost, hPost', hSame, hOutside, ?_⟩
  intro d t
  obtain ⟨-, hSolo, hKeeps, -, hWallets, hShown⟩ : Deferred a s d t := hClosing
  have hCommitted : Solo a (t.commit a).1 := hSolo.of_moves true (.single (.commit rfl))
  have hDropped : Solo a (t.drop a).1 := hSolo.of_moves false (.single .drop)
  have hPublished : (t.commit a).1.wallet? = (t.view a).shown? :=
    congrArg View.wallet? (view_commit hSolo.coherent)
  have hUndone : (t.drop a).1.wallet? = s.wallet? :=
    (congrArg View.wallet? (view_drop (a := a) hSolo.coherent.nodup)).trans hWallets
  refine ⟨hCommitted.resting ?_, ?_, ?_⟩
  · rw [copies_commit, if_pos rfl]
  · rw [hPublished]
    exact hShown
  · -- nobody is at work any more, and the wallets are what they were
    refine hResting.rows_eq (hDropped.resting ?_) ?_ hUndone
    · rw [copies_drop, if_pos rfl]
    · exact (t.keeps_drop a).ids.trans hKeeps.ids

namespace Crowd

/-- A store with a live wallet of user 1, with 10 coins, and a wallet of user 2 that has been
deleted. -/
def halfDeleted : Store :=
  .ofWallets [walletOf 1 (coins 10), { walletOf 2 (coins 10) with deletedAt := some .epoch }]

/-- Amounts for a live wallet, for a missing one and for a deleted one, one of them too much to take,
with reads between them. -/
def mixedPostings : List Posting :=
  [.add (.ofNat 1) (coins 3), .read (.ofNat 1) (.ofNat 1), .add (.ofNat 1) (coins 20).neg,
    .add (.ofNat 9) (coins 1), .add (.ofNat 2) (coins 1), .read (.ofNat 2) (.ofNat 2),
    .read (.ofNat 1) (.ofNat 2), .add (.ofNat 1) (coins 13).neg]

/-- Three coins come in, twenty are not there, and thirteen go out, in a transaction as at once. -/
theorem mixed_postings_deferred :
    halfDeleted.Resting ∧ halfDeleted.armed = [] ∧
      ∃ account account', halfDeleted.post? (Posting.direct 0) (fun _ => .epoch) mixedPostings =
          some account ∧
        (halfDeleted.begin 1).post? (Posting.within 1) (fun _ => .epoch) mixedPostings =
          some account' ∧
        List.Forall₂ Posting.Answer.Alike (account.map Prod.fst) (account'.map Prod.fst) ∧
        account.map Prod.fst =
          [.added (.ok ()), .shown (.ok (some (walletOf 1 (coins 13)))),
            .added (.error .insufficientBalance), .added (.error .emptyWallet),
            .added (.error .emptyWallet), .shown (.ok none), .shown (.ok none),
            .added (.ok ())] ∧
        ((((halfDeleted.begin 1).closing account').commit 1).1.wallet? (.ofNat 1)).map
          Wallet.balance = some (coins 0) ∧
        (((halfDeleted.begin 1).closing account').drop 1).1.rows = halfDeleted.rows := by
  have hResting : halfDeleted.Resting := Store.resting_ofWallets _
  have hArmed : halfDeleted.armed = [] :=
    Store.ofWallets_induction (P := fun s => s.armed = []) rfl
      fun w _ s s' hInsert hNone => (Store.armed_insert hInsert).trans hNone
  obtain ⟨account, account', hPost, hPost', hSame, -, -, hAlike, hRows⟩ :=
    hResting.deferred hArmed mixedPostings 1 0 (fun _ => .epoch) (fun _ => .epoch)
  have hFacts : (halfDeleted.post? (Posting.direct 0) (fun _ => .epoch) mixedPostings).map
      (fun account => (account.map Prod.fst,
        ((halfDeleted.closing account).wallet? (.ofNat 1)).map Wallet.balance)) =
      some ([.added (.ok ()), .shown (.ok (some (walletOf 1 (coins 13)))),
        .added (.error .insufficientBalance), .added (.error .emptyWallet),
        .added (.error .emptyWallet), .shown (.ok none), .shown (.ok none), .added (.ok ())],
        some (coins 0)) := by
    decide +kernel
  rw [hPost] at hFacts
  obtain ⟨hAnswers, hBalance⟩ := Prod.mk.inj (Option.some.inj hFacts)
  refine ⟨hResting, hArmed, account, account', hPost, hPost', hSame, hAnswers, ?_, hRows⟩
  rw [hAlike.balance_eq, hBalance]

end Crowd

end Purse
