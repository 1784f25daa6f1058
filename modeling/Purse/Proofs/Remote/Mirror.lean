import Purse.Proofs.Crowd.Programs
import Purse.Proofs.Remote.Rows
import Purse.Proofs.Service.Transcript
import Purse.Remote.Branch

/-!
# Two ledgers side by side

A ledger in memory and a ledger over a database that keep the same wallets, while one command is at work
in each of them (`Mirror`). The wallets in memory are what the command is shown: its working copies, and
the committed wallets otherwise. The rows in the database are those, as the command has left them so far,
and the rows as they were when its transaction began are the committed wallets. Each call is answered
alike on both sides, and leaves them as alike as they were.

## Definitions

* `Ledger.exchanges`: the calls of a program, with what was seen before each of them.
* `Mirror`: two ledgers that keep the same wallets, by whether a transaction is open.

## Results

* `Mirror.serve`: what becomes of a call on both sides.
* `Mirror.run`: what becomes of a program on both sides.
-/

namespace Purse

-- ---------------------------------------------------------------------------
-- What is called in memory
-- ---------------------------------------------------------------------------

/-- The calls that a program makes, with their answers and what is seen before each of them. -/
def Ledger.exchanges {α : Type} (env : Surroundings) (a : Agent) :
    Program α → Ledger → List (View × Exchange)
  | .done _, _ => []
  | .call c next, l =>
    match l.perform env a c with
    | .replied answer l' _ => (l.store.view a, ⟨c, answer⟩) :: exchanges env a (next answer) l'
    | .waiting _ _ | .faulted _ _ => []

theorem Ledger.exchanges_replied {α : Type} {env : Surroundings} {a : Agent} {l l' : Ledger} {c : Call}
    {answer : Result c.Answer} {woken : List Agent}
    (hPerform : l.perform env a c = .replied answer l' woken)
    (next : Result c.Answer → Program α) :
    l.exchanges env a (.call c next) =
      (l.store.view a, ⟨c, answer⟩) :: l'.exchanges env a (next answer) := by
  simp only [exchanges, hPerform]

theorem Ledger.exchanges_faulted {α : Type} {env : Surroundings} {a : Agent} {l l' : Ledger} {c : Call}
    {fault : Fault} (hPerform : l.perform env a c = .faulted fault l')
    (next : Result c.Answer → Program α) : l.exchanges env a (.call c next) = [] := by
  simp only [exchanges, hPerform]

/-- What the mint has answered. -/
def Exchange.minted? : Exchange → Option (Result WalletId)
  | ⟨.newId, answer⟩ => some answer
  | _ => none

/-- The ids that a program mints. -/
def Ledger.minted {α : Type} (env : Surroundings) (a : Agent) (p : Program α) (l : Ledger) :
    List (Result WalletId) :=
  (l.exchanges env a p).filterMap (Exchange.minted? ∘ Prod.snd)

theorem Ledger.minted_replied {α : Type} {env : Surroundings} {a : Agent} {l l' : Ledger} {c : Call}
    {answer : Result c.Answer} {woken : List Agent}
    (hPerform : l.perform env a c = .replied answer l' woken)
    (next : Result c.Answer → Program α) :
    l.minted env a (.call c next) =
      (Exchange.minted? ⟨c, answer⟩).toList ++ l'.minted env a (next answer) := by
  unfold minted
  rw [exchanges_replied hPerform, List.filterMap_cons, Function.comp_apply]
  cases Exchange.minted? ⟨c, answer⟩ <;> rfl

/-- If a call adds to a balance, the exact sum fits. -/
def Call.SumsFit (v : View) : Call → Prop
  | .add id amount | .addWithin id amount => ∀ w ∈ v.shown? id, Decimal.SumFits w.balance amount
  | _ => True

instance (v : View) : (c : Call) → Decidable (c.SumsFit v)
  | .add id amount | .addWithin id amount =>
    inferInstanceAs (Decidable (∀ w ∈ v.shown? id, Decimal.SumFits w.balance amount))
  | .begin | .commit | .rollback | .lock _ _ | .insert _ | .get _ | .list _ | .claim _ | .release _
  | .newId | .readClock => isTrue trivial

/-- How a program ended in memory. -/
inductive Progress.Over : Progress Reply → Ending → Ledger → Prop where
  | ended (r : Result Reply) (l : Ledger) (woken : List Agent) : Over (.ended r l woken) (.result r) l
  | faulted (f : Fault) (l : Ledger) (woken : List Agent) : Over (.faulted f l woken) (.fault f) l

namespace Remote

open Store

/-- A ledger in memory, with a command of an agent at work in it, and a ledger over a database keep the
same wallets. -/
structure Mirror (a : Agent) (isOpen : Bool) (l : Ledger) (b : Branch) : Prop where
  solo : Solo a l.store
  unhindered : l.Unhindered
  keys : b.keys = l.keys
  now : b.now = l.now
  shown : Kept l.store.rows.keys (l.store.view a).shown? b.table.rows
  closed : isOpen = false → l.store.copies a = [] ∧ b.table.saved = none
  opened : isOpen = true →
    ∃ rows, b.table.saved = some rows ∧ Kept l.store.rows.keys l.store.wallet? rows

/-- What a ledger over a database answers to a call on the database. -/
theorem Branch.serve_eq {b : Branch} {c : Call} {answer : Result c.Answer} {table : WalletTable}
    (hAsks : (inquiry? c).isSome = true)
    (hAnswer : overDatabase WalletTable.answer nobody c b.table = (answer, table)) :
    b.serve c = .ok (answer, { b with table }) := by
  cases c with
  | claim | release | newId | readClock => simp [inquiry?] at hAsks
  | _ => simp only [serve, hAnswer]

/-- To run a program is to go on with what its first call is answered. -/
theorem Branch.run_call {b b' : Branch} {c : Call} {answer : Result c.Answer}
    (hServe : b.serve c = .ok (answer, b')) (next : Result c.Answer → Program Reply) :
    b.run (.call c next) = b'.run (next answer) := by
  simp only [run, hServe]

namespace Mirror

variable {env : Surroundings} {a : Agent} {isOpen : Bool} {l : Ledger} {b : Branch} {c : Call}

/-- A call in memory and what came of it over the database are answered alike, both sides are then as
alike as before, and the mint over the database has given what the mint in memory has. -/
def Together (env : Surroundings) (a : Agent) (isOpen : Bool) (l : Ledger) (b : Branch) (c : Call)
    (served : Except Fault (Result c.Answer × Branch)) : Prop :=
  ∃ answer l' woken answer' b', l.perform env a c = .replied answer l' woken ∧
    served = .ok (answer', b') ∧ Agree c.Matches answer answer' ∧
    Mirror a (c.leavesOpen isOpen answer) l' b' ∧
    b.minted = (Exchange.minted? ⟨c, answer⟩).toList ++ b'.minted

/-- Outside a transaction the committed wallets are shown. -/
theorem shown?_eq (hMirror : Mirror a false l b) :
    (l.store.view a).shown? = l.store.wallet? :=
  View.shown?_of_nil (hMirror.closed rfl).1

theorem kept (hMirror : Mirror a false l b) :
    Kept l.store.rows.keys l.store.wallet? b.table.rows := by
  have hKept := hMirror.shown
  rwa [hMirror.shown?_eq] at hKept

theorem resting (hMirror : Mirror a false l b) : l.store.Resting :=
  hMirror.solo.resting (hMirror.closed rfl).1

/-- Without a transaction it does not count who is at work. -/
theorem between (hResting : l.store.Resting) (hFree : l.Unhindered) (hKeys : b.keys = l.keys)
    (hNow : b.now = l.now) (hSaved : b.table.saved = none)
    (hKept : Kept l.store.rows.keys l.store.wallet? b.table.rows) : Mirror a false l b where
  solo := .of_resting hResting a
  unhindered := hFree
  keys := hKeys
  now := hNow
  shown := by
    rw [View.shown?_of_nil (hResting.idle a)]
    exact hKept
  closed _ := ⟨hResting.idle a, hSaved⟩
  opened := by rintro ⟨⟩

/-- After a call that leaves no transaction open the rows are those of the committed wallets. -/
theorem without {l' : Ledger} {table : WalletTable} (hMirror : Mirror a isOpen l b)
    (hKeeps : l.Keeps l') (hSolo : Solo a l'.store) (hNone : l'.store.copies a = [])
    (hSaved : table.saved = none) (hKept : Kept l.store.rows.keys l'.store.wallet? table.rows) :
    Mirror a false l' { b with table } := by
  rw [← hKeeps.store.ids] at hKept
  exact between (hSolo.resting hNone) (hKeeps.unhindered hMirror.unhindered)
    (hMirror.keys.trans hKeeps.keys.symm) (hMirror.now.trans hKeeps.now.symm) hSaved hKept

/-- After a call that leaves a transaction open the rows are what is shown, and the committed wallets
are kept beside. -/
theorem within {l' : Ledger} {table : WalletTable} {rows : List Record}
    (hMirror : Mirror a isOpen l b) (hKeeps : l.Keeps l') (hSolo : Solo a l'.store)
    (hShown : Kept l.store.rows.keys (l'.store.view a).shown? table.rows)
    (hSaved : table.saved = some rows) (hKept : Kept l.store.rows.keys l'.store.wallet? rows) :
    Mirror a true l' { b with table } where
  solo := hSolo
  unhindered := hKeeps.unhindered hMirror.unhindered
  keys := hMirror.keys.trans hKeeps.keys.symm
  now := hMirror.now.trans hKeeps.now.symm
  shown := by
    rw [hKeeps.store.ids]
    exact hShown
  closed := by rintro ⟨⟩
  opened _ := by
    rw [hKeeps.store.ids]
    exact ⟨rows, hSaved, hKept⟩

/-- A call in the midst of a transaction leaves the committed wallets as they are. -/
theorem amidst {l' : Ledger} {table : WalletTable} (hMirror : Mirror a true l b)
    (hKeeps : l.Keeps l') (hSolo : Solo a l'.store) (hWallets : l'.store.wallet? = l.store.wallet?)
    (hSaved : table.saved = b.table.saved)
    (hShown : Kept l.store.rows.keys (l'.store.view a).shown? table.rows) :
    Mirror a true l' { b with table } := by
  obtain ⟨rows, hRows, hKept⟩ := hMirror.opened rfl
  rw [← hWallets] at hKept
  exact hMirror.within hKeeps hSolo hShown (hSaved.trans hRows) hKept

/-! ## Transactions -/

/-- The rows as they are, are those of the committed wallets. -/
theorem begin (hMirror : Mirror a false l b) (env : Surroundings) :
    Together env a false l b .begin (b.serve .begin) := by
  obtain ⟨hNone, -⟩ := hMirror.closed rfl
  obtain ⟨l', hPerform, hKeeps⟩ := Ledger.exists_perform_begin hMirror.unhindered env a
  obtain ⟨hSolo, hCopies, hQuiet⟩ :=
    hMirror.solo.replied (show Call.begin.fits false = true from rfl) (fun _ => hNone) hPerform
  have hKept := hMirror.kept
  rw [← show l'.store.wallet? = l.store.wallet? from hQuiet rfl] at hKept
  -- there are no copies yet, so that these are shown as well
  have hShown : (l'.store.view a).shown? = l'.store.wallet? := View.shown?_of_nil hCopies
  exact ⟨.ok (), l', [], .ok (), _, hPerform, rfl, .ok rfl,
    hMirror.within hKeeps hSolo (hShown ▸ hKept) rfl hKept, rfl⟩

/-- What was shown is committed, and the rows show it already. -/
theorem commit (hMirror : Mirror a true l b) (env : Surroundings) :
    Together env a true l b .commit (b.serve .commit) := by
  obtain ⟨l', woken, hPerform, hKeeps⟩ := Ledger.exists_perform_commit hMirror.unhindered env a
  obtain ⟨hSolo, ⟨hCopies, hWallets⟩, -⟩ :=
    hMirror.solo.replied (show Call.commit.fits true = true from rfl) (by rintro ⟨⟩) hPerform
  have hKept := hMirror.shown
  rw [← show l'.store.wallet? = (l.store.view a).shown? from hWallets] at hKept
  exact ⟨.ok (), l', woken, .ok (), _, hPerform, rfl, .ok rfl,
    hMirror.without hKeeps hSolo hCopies rfl hKept, rfl⟩

/-- The rows are again as they were when the transaction began. -/
theorem rollback (hMirror : Mirror a true l b) (env : Surroundings) :
    Together env a true l b .rollback (b.serve .rollback) := by
  obtain ⟨rows, hSaved, hKept⟩ := hMirror.opened rfl
  obtain ⟨l', woken, hPerform, hKeeps⟩ := Ledger.exists_perform_rollback hMirror.unhindered env a
  obtain ⟨hSolo, hCopies, hQuiet⟩ :=
    hMirror.solo.replied (show Call.rollback.fits true = true from rfl) (by rintro ⟨⟩) hPerform
  have hServe : overDatabase WalletTable.answer Branch.nobody .rollback b.table =
      (.ok (), { b.table with rows, saved := none }) := by
    show (Except.ok (), ({ b.table with rows := b.table.saved.getD b.table.rows, saved := none } :
      WalletTable)) = _
    rw [hSaved]
    rfl
  rw [← show l'.store.wallet? = l.store.wallet? from hQuiet rfl] at hKept
  exact ⟨.ok (), l', woken, .ok (), _, hPerform, Branch.serve_eq rfl hServe, .ok rfl,
    hMirror.without hKeeps hSolo hCopies rfl hKept, rfl⟩

theorem lock (hMirror : Mirror a true l b) (id : WalletId) (user : UserId) (env : Surroundings) :
    Together env a true l b (.lock id user) (b.serve (.lock id user)) := by
  obtain ⟨l', hPerform, hKeeps⟩ :=
    Ledger.exists_perform_lock hMirror.unhindered hMirror.solo id user env
  obtain ⟨hSolo, hTold, hQuiet⟩ :=
    hMirror.solo.replied (show (Call.lock id user).fits true = true from rfl) (by rintro ⟨⟩) hPerform
  obtain ⟨v, hServe, hFound⟩ := hMirror.shown.lock id user Branch.nobody
  have hKept := hMirror.shown
  rw [← hTold.shown?_lock (hQuiet rfl) hMirror.shown.keyed] at hKept
  exact ⟨_, l', [], .ok v, _, hPerform, Branch.serve_eq rfl hServe, .ok hFound,
    hMirror.amidst hKeeps hSolo (hQuiet rfl) rfl hKept, rfl⟩

/-- An amount is added within a transaction. -/
theorem addWithin (hMirror : Mirror a true l b) {id : WalletId} {amount : Decimal}
    (hFits : ∀ w ∈ (l.store.view a).shown? id, Decimal.SumFits w.balance amount)
    (env : Surroundings) :
    Together env a true l b (.addWithin id amount) (b.serve (.addWithin id amount)) := by
  obtain ⟨l', hPerform, hKeeps⟩ :=
    Ledger.exists_perform_addWithin hMirror.unhindered hMirror.solo id amount env
  have hReplied := hMirror.solo.replied
    (show (Call.addWithin id amount).fits true = true from rfl) (by rintro ⟨⟩) hPerform
  cases hAdded : Wallet.added ((l.store.view a).shown? id) amount (l.wallTime env) with
  | error e =>
    -- the wallet may have been locked, but shows as it did
    rw [hAdded] at hPerform hReplied
    obtain ⟨hSolo, hTold, hQuiet⟩ := hReplied
    have hServe := hMirror.shown.add_error hFits hAdded Branch.nobody
    have hKept := hMirror.shown
    rw [← hTold.shown?_addWithin_error (hQuiet rfl) hMirror.shown.keyed] at hKept
    exact ⟨_, l', [], .error e, _, hPerform, Branch.serve_eq rfl hServe, .error e,
      hMirror.amidst hKeeps hSolo (hQuiet rfl) rfl hKept, rfl⟩
  | ok added =>
    rw [hAdded] at hPerform hReplied
    obtain ⟨hSolo, hTold, hQuiet⟩ := hReplied
    obtain ⟨w, w', now, hWallet, hAdjust, hShown⟩ :=
      hTold.shown?_addWithin_ok (hQuiet rfl) hMirror.shown.keyed
    obtain ⟨table, hServe, hSaved, hKept⟩ :=
      hMirror.shown.add_ok hWallet (hFits w hWallet) hAdjust Branch.nobody
    rw [← hShown] at hKept
    exact ⟨_, l', [], .ok (), _, hPerform, Branch.serve_eq rfl hServe, .ok rfl,
      hMirror.amidst hKeeps hSolo (hQuiet rfl) hSaved hKept, rfl⟩

/-! ## Calls without a transaction -/

/-- An amount is added at once. -/
theorem add (hMirror : Mirror a false l b) {id : WalletId} {amount : Decimal}
    (hFits : ∀ w ∈ (l.store.view a).shown? id, Decimal.SumFits w.balance amount)
    (env : Surroundings) :
    Together env a false l b (.add id amount) (b.serve (.add id amount)) := by
  obtain ⟨hNone, hSaved⟩ := hMirror.closed rfl
  have hKept := hMirror.kept
  rw [hMirror.shown?_eq] at hFits
  have hNew : id ∉ l.store.locked a := by
    rw [Store.locked, hNone]
    exact List.not_mem_nil
  obtain ⟨l', woken, hPerform, hKeeps⟩ :=
    Ledger.exists_perform_add hMirror.unhindered hMirror.solo hNew amount env
  have hReplied := hMirror.solo.replied
    (show (Call.add id amount).fits false = true from rfl) (fun _ => hNone) hPerform
  cases hAdded : Wallet.added (l.store.wallet? id) amount (l.wallTime env) with
  | error e =>
    rw [hAdded] at hPerform hReplied
    obtain ⟨hSolo, hTold, hQuiet⟩ := hReplied
    have hServe := hKept.add_error hFits hAdded Branch.nobody
    rw [← show l'.store.wallet? = l.store.wallet? from hQuiet rfl] at hKept
    exact ⟨_, l', woken, .error e, _, hPerform, Branch.serve_eq rfl hServe, .error e,
      hMirror.without hKeeps hSolo (Eq.trans hTold hNone) hSaved hKept, rfl⟩
  | ok added =>
    rw [hAdded] at hPerform hReplied
    obtain ⟨hSolo, ⟨hSame, w, w', now, hWallet, hAdjust, hWallets⟩, -⟩ := hReplied
    obtain ⟨table, hServe, hSaved', hKept'⟩ :=
      hKept.add_ok hWallet (hFits w hWallet) hAdjust Branch.nobody
    have hUpdated : l'.store.wallet? = Function.update l.store.wallet? id (some w') := hWallets
    rw [← hUpdated] at hKept'
    exact ⟨_, l', woken, .ok (), _, hPerform, Branch.serve_eq rfl hServe, .ok rfl,
      hMirror.without hKeeps hSolo (Eq.trans hSame hNone) (hSaved'.trans hSaved) hKept', rfl⟩

/-- What leaves wallets and transactions as they are leaves both sides as alike as they are. -/
theorem of_store {l' : Ledger} {b' : Branch} (hMirror : Mirror a isOpen l b)
    (hStore : l'.store = l.store) (hFailing : l'.failing = l.failing) (hTable : b'.table = b.table)
    (hKeys : b'.keys = l'.keys) (hNow : b'.now = l'.now) : Mirror a isOpen l' b' := by
  obtain ⟨hSolo, ⟨hFree, hArmed⟩, -, -, hShown, hClosed, hOpened⟩ := hMirror
  rw [← hStore] at hSolo hArmed hShown hClosed hOpened
  rw [← hTable] at hShown hClosed hOpened
  rw [← hFailing] at hFree
  exact ⟨hSolo, ⟨hFree, hArmed⟩, hKeys, hNow, hShown, hClosed, hOpened⟩

/-- A wallet is stored. -/
theorem insert (hMirror : Mirror a false l b) {w v : Wallet} (hMatches : w.Matches v)
    (hBalance : w.balance.isBelowZero = false) (env : Surroundings) :
    Together env a false l b (.insert w) (b.serve (.insert v)) := by
  have hKept := hMirror.kept
  obtain ⟨journal, hPerform⟩ := hMirror.unhindered.exists_perform env a (.insert w)
  cases hInsert : l.store.insert w with
  | error e =>
    obtain ⟨rfl, hSome⟩ := insert_eq_error hInsert
    simp only [Ledger.execute, hInsert] at hPerform
    have hServe := hKept.insert_error hMatches hBalance hSome Branch.nobody
    exact ⟨_, _, [], .error .alreadyExists, _, hPerform, Branch.serve_eq rfl hServe, .error _,
      hMirror.of_store rfl rfl rfl hMirror.keys hMirror.now, rfl⟩
  | ok store =>
    obtain ⟨hNone, hWallets⟩ := wallet?_insert hInsert
    simp only [Ledger.execute, hInsert] at hPerform
    obtain ⟨table, hServe, hSaved, hKept'⟩ :=
      hKept.insert_ok hMatches hBalance hNone Branch.nobody
    rw [← keys_insert hInsert, ← hWallets] at hKept'
    have hArmed := (armed_insert hInsert).trans hMirror.unhindered.armed
    refine ⟨_, _, [], .ok (), _, hPerform, Branch.serve_eq rfl hServe, .ok rfl, ?_, rfl⟩
    exact between (hMirror.resting.insert hInsert) ⟨hMirror.unhindered.failing, hArmed⟩
      hMirror.keys hMirror.now (hSaved.trans (hMirror.closed rfl).2) hKept'

theorem get (hMirror : Mirror a false l b) (id : WalletId) (env : Surroundings) :
    Together env a false l b (.get id) (b.serve (.get id)) := by
  obtain ⟨journal, hPerform⟩ := hMirror.unhindered.exists_perform env a (.get id)
  obtain ⟨v, hServe, hFound⟩ := hMirror.kept.get id Branch.nobody
  exact ⟨_, _, [], .ok v, _, hPerform, Branch.serve_eq rfl hServe, .ok hFound,
    hMirror.of_store rfl rfl rfl hMirror.keys hMirror.now, rfl⟩

theorem list (hMirror : Mirror a false l b) (user : UserId) (env : Surroundings) :
    Together env a false l b (.list user) (b.serve (.list user)) := by
  obtain ⟨journal, hPerform⟩ := hMirror.unhindered.exists_perform env a (.list user)
  obtain ⟨vs, hServe, hListed⟩ := hMirror.kept.list user Branch.nobody
  rw [← Store.wallets_eq_filterMap] at hListed
  exact ⟨_, _, [], .ok vs, _, hPerform, Branch.serve_eq rfl hServe, .ok hListed,
    hMirror.of_store rfl rfl rfl hMirror.keys hMirror.now, rfl⟩

theorem release (hMirror : Mirror a false l b) (key : String) (env : Surroundings) :
    Together env a false l b (.release key) (b.serve (.release key)) := by
  obtain ⟨journal, hPerform⟩ := hMirror.unhindered.exists_perform env a (.release key)
  exact ⟨_, _, [], .ok (), _, hPerform, rfl, .ok rfl,
    hMirror.of_store rfl rfl rfl (congrArg (·.release key) hMirror.keys) hMirror.now, rfl⟩

theorem readClock (hMirror : Mirror a false l b) (env : Surroundings) :
    Together env a false l b .readClock (b.serve .readClock) := by
  have hPerform : l.perform env a .readClock = .replied (.ok (l.wallTime env)) l.read [] := rfl
  exact ⟨_, _, [], .ok b.wall, _, hPerform, rfl, .ok trivial,
    hMirror.of_store rfl rfl rfl hMirror.keys hMirror.now, rfl⟩

/-- A key is claimed on both sides, or neither of them has an answer. -/
theorem claim (hMirror : Mirror a false l b) (key : String) (env : Surroundings) :
    Together env a false l b (.claim key) (b.serve (.claim key)) ∨
      ∃ fault l', l.perform env a (.claim key) = .faulted fault l' ∧
        b.serve (.claim key) = .error fault ∧ Mirror a false l' b := by
  obtain ⟨journal, hPerform⟩ := Ledger.exists_perform_claim hMirror.unhindered.failing key env a
  cases hClaim : l.keys.claim l.now key with
  | ok claimed =>
    obtain ⟨inUse, keys⟩ := claimed
    rw [hClaim] at hPerform
    have hServe : b.serve (.claim key) = .ok (.ok inUse, { b with keys }) := by
      simp only [Branch.serve, hMirror.keys, hMirror.now, hClaim]
    exact Or.inl ⟨_, _, [], .ok inUse, _, hPerform, hServe, .ok rfl,
      hMirror.of_store rfl rfl rfl rfl hMirror.now, rfl⟩
  | error fault =>
    rw [hClaim] at hPerform
    have hServe : b.serve (.claim key) = .error fault := by
      simp only [Branch.serve, hMirror.keys, hMirror.now, hClaim]
    exact Or.inr ⟨fault, _, hPerform, hServe,
      hMirror.of_store rfl rfl rfl hMirror.keys hMirror.now⟩

/-- An id is minted, which is the one that the mint over the database gives next. -/
theorem newId (hMirror : Mirror a false l b)
    (hMinted : ∀ answer l' woken, l.perform env a .newId = .replied answer l' woken →
      ∃ rest, b.minted = answer :: rest) :
    Together env a false l b .newId (b.serve .newId) := by
  obtain ⟨answer, mint, hAnswered⟩ : ∃ answer mint, l.perform env a .newId =
      .replied answer { l.read with mint } [] := by
    show ∃ answer mint, l.execute env a .newId = _
    simp only [Ledger.execute]
    cases l.mint.next? (l.wallTime env).toMillis.toNat (env.random l.readings) with
    | some next => exact ⟨.ok next.1, next.2, rfl⟩
    | none => exact ⟨_, l.mint, rfl⟩
  obtain ⟨rest, hNext⟩ := hMinted answer _ _ hAnswered
  have hServe : b.serve .newId = .ok (answer, { b with minted := rest }) := by
    simp only [Branch.serve, hNext]
  refine ⟨answer, _, [], answer, _, hAnswered, hServe, .of_eq (fun _ => rfl) answer, ?_, hNext⟩
  cases answer <;> exact hMirror.of_store rfl rfl rfl hMirror.keys hMirror.now

/-! ## Every call, and whole programs -/

/-- What becomes of a call that stores no wallet, on both sides. An amount that is added fits, and an id
is minted as it is in memory. -/
theorem serve (hMirror : Mirror a isOpen l b) (hWithin : c.isWithin = isOpen)
    (hStores : c.inserts? = none)
    (hFits : ∀ answer l' woken, l.perform env a c = .replied answer l' woken →
      c.SumsFit (l.store.view a))
    (hMinted : ∀ answer l' woken, l.perform env a c = .replied answer l' woken →
      ∃ rest, b.minted = (Exchange.minted? ⟨c, answer⟩).toList ++ rest) :
    Together env a isOpen l b c (b.serve c) ∨
      isOpen = false ∧ ∃ fault l', l.perform env a c = .faulted fault l' ∧
        b.serve c = .error fault ∧ Mirror a false l' b := by
  subst hWithin
  cases c with
  | begin => exact Or.inl (hMirror.begin env)
  | commit => exact Or.inl (hMirror.commit env)
  | rollback => exact Or.inl (hMirror.rollback env)
  | lock id user => exact Or.inl (hMirror.lock id user env)
  | get id => exact Or.inl (hMirror.get id env)
  | list user => exact Or.inl (hMirror.list user env)
  | release key => exact Or.inl (hMirror.release key env)
  | readClock => exact Or.inl (hMirror.readClock env)
  | newId => exact Or.inl (hMirror.newId hMinted)
  | insert w => cases hStores
  | claim key => exact (hMirror.claim key env).imp_right fun hFaulted => ⟨rfl, hFaulted⟩
  | addWithin id amount =>
    obtain ⟨l', hPerform, -⟩ :=
      Ledger.exists_perform_addWithin hMirror.unhindered hMirror.solo id amount env
    exact Or.inl (hMirror.addWithin (hFits _ _ _ hPerform) env)
  | add id amount =>
    have hNew : id ∉ l.store.locked a := by
      rw [Store.locked, (hMirror.closed rfl).1]
      exact List.not_mem_nil
    obtain ⟨l', woken, hPerform, -⟩ :=
      Ledger.exists_perform_add hMirror.unhindered hMirror.solo hNew amount env
    exact Or.inl (hMirror.add (hFits _ _ _ hPerform) env)

/-- What becomes of two programs on both sides: they end alike, and leave both sides alike. -/
def Finished (env : Surroundings) (a : Agent) (p p' : Program Reply) (l : Ledger) (b : Branch)
    (rest : List (Result WalletId)) : Prop :=
  ∀ woken, ∃ ending l' ending' b', (l.drive env a p woken).Over ending l' ∧
    b.run p' = (ending', b') ∧ ending.Matches ending' ∧ Mirror a false l' b' ∧ b'.minted = rest

/-- Programs whose calls are answered alike come to what is left of them. -/
theorem Together.finished {served : Except Fault (Result c.Answer × Branch)} {p' : Program Reply}
    {next next' : Result c.Answer → Program Reply} {rest : List (Result WalletId)}
    (hTogether : Together env a isOpen l b c served)
    (hRun : ∀ answer b', served = .ok (answer, b') → b.run p' = b'.run (next' answer))
    (hFits : ∀ x ∈ l.exchanges env a (.call c next), x.2.call.SumsFit x.1)
    (hMinted : b.minted = l.minted env a (.call c next) ++ rest)
    (hNext : ∀ answer answer' l' b', Agree c.Matches answer answer' →
      Mirror a (c.leavesOpen isOpen answer) l' b' →
      (∀ x ∈ l'.exchanges env a (next answer), x.2.call.SumsFit x.1) →
      b'.minted = l'.minted env a (next answer) ++ rest →
      Finished env a (next answer) (next' answer') l' b' rest) :
    Finished env a (.call c next) p' l b rest := by
  obtain ⟨answer, l', others, answer', b', hPerform, hServed, hAgree, hMirror, hGiven⟩ := hTogether
  rw [Ledger.exchanges_replied hPerform, List.forall_mem_cons] at hFits
  rw [Ledger.minted_replied hPerform, hGiven, List.append_assoc, List.append_cancel_left_eq]
    at hMinted
  intro woken
  obtain ⟨ending, l'', ending', b'', hOver, hRest, hAfter⟩ :=
    hNext answer answer' l' b' hAgree hMirror hFits.2 hMinted (woken ++ others)
  refine ⟨ending, l'', ending', b'', ?_, ?_, hAfter⟩
  · rw [Ledger.drive_replied hPerform]
    exact hOver
  · rw [hRun answer' b' hServed]
    exact hRest

/-- Programs that ask alike end alike on both sides. -/
theorem run {p p' : Program Reply} (hAlike : Program.Alike isOpen p p')
    (hMirror : Mirror a isOpen l b) {rest : List (Result WalletId)}
    (hFits : ∀ x ∈ l.exchanges env a p, x.2.call.SumsFit x.1)
    (hMinted : b.minted = l.minted env a p ++ rest) : Finished env a p p' l b rest := by
  -- on the programs: both sides are alike after each call, and what is left asks alike
  induction hAlike generalizing l b with
  | done hResult =>
    exact fun woken => ⟨_, l, _, b, .ended _ l woken, rfl, .result hResult, hMirror, hMinted⟩
  | @call isOpen c next next' hWithin hStores hNext ih =>
    have hSum : ∀ answer l' woken, l.perform env a c = .replied answer l' woken →
        c.SumsFit (l.store.view a) := fun answer l' woken hPerform => by
      rw [Ledger.exchanges_replied hPerform, List.forall_mem_cons] at hFits
      exact hFits.1
    have hMint : ∀ answer l' woken, l.perform env a c = .replied answer l' woken →
        ∃ rest, b.minted = (Exchange.minted? ⟨c, answer⟩).toList ++ rest :=
      fun answer l' woken hPerform => by
        rw [Ledger.minted_replied hPerform, List.append_assoc] at hMinted
        exact ⟨_, hMinted⟩
    rcases hMirror.serve hWithin hStores hSum hMint with
      hTogether | ⟨rfl, fault, l', hPerform, hServe, hMirror'⟩
    · exact hTogether.finished (fun answer b' hServe => Branch.run_call hServe next') hFits hMinted
        fun answer answer' l' b' hAgree => ih answer answer' hAgree
    · rw [Ledger.minted, Ledger.exchanges_faulted hPerform] at hMinted
      intro woken
      refine ⟨.fault fault, l', .fault fault, b, ?_, ?_, .fault fault, hMirror', hMinted⟩
      · simp only [Ledger.drive, hPerform]
        exact .faulted fault l' woken
      · simp only [Branch.run, hServe]
  | @insert w v next next' hWallet hBalance hNext ih =>
    have hRun : ∀ answer b', b.serve (.insert v) = .ok (answer, b') →
        b.run (.call (.insert v) next') = b'.run (next' answer) :=
      fun answer b' hServe => Branch.run_call hServe next'
    refine (hMirror.insert hWallet hBalance env).finished hRun hFits hMinted
      fun answer answer' l' b' hAgree => ?_
    obtain rfl : answer = answer' := by
      cases hAgree with
      | ok hValues => exact congrArg Except.ok hValues
      | error e => rfl
    exact ih answer

end Mirror

end Remote

end Purse
