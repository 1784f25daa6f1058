import Purse.Proofs.Crowd.Answers
import Purse.Proofs.Store.Readers
import Purse.Proofs.Wallet.Adjust

/-!
# Agents by themselves

An agent that is the only one at work in a store (`Solo`), over a ledger in which nothing is arranged to
fail (`Ledger.Unhindered`). It never has to wait, and what it is answered follows from what it sees: the
wallet that it locks is the one that it is shown, and an amount is added if that wallet takes it.

## Results

* `Solo.replied`: an agent that is the only one at work stays so, and sees what it is told.
* `exists_perform_lock`, `exists_perform_addWithin`, `exists_perform_add`: what it is answered.
-/

namespace Purse

-- ---------------------------------------------------------------------------
-- The only one at work
-- ---------------------------------------------------------------------------

/-- An agent is the only one at work in a store, and waits for nothing. -/
structure Solo (a : Agent) (s : Store) : Prop where
  coherent : s.Coherent fun _ => none
  others : ∀ b, b ≠ a → s.copies b = []

/-- Nothing is arranged to fail in a ledger. -/
structure Ledger.Unhindered (l : Ledger) : Prop where
  failing : ∀ m, l.failing.get? m = none
  armed : l.store.armed = []

namespace Solo

open Store

variable {env : Surroundings} {s : Store} {l l' : Ledger} {a : Agent} {c : Call} {id : WalletId}
  {w : Wallet}

theorem of_resting (hResting : s.Resting) (a : Agent) : Solo a s :=
  ⟨hResting.coherent, fun b _ => hResting.idle b⟩

theorem line_eq_nil (hSolo : Solo a s) (hNew : id ∉ s.locked a) : s.line id = [] := by
  rw [List.eq_nil_iff_forall_not_mem]
  intro b hMem
  rw [hSolo.coherent.stands] at hMem
  rcases hMem with hLocked | hPending
  · by_cases hb : b = a
    · subst hb
      exact hNew hLocked
    · rw [locked, hSolo.others b hb] at hLocked
      simp at hLocked
  · simp at hPending

/-- Without copies it has let go of everything. -/
theorem resting (hSolo : Solo a s) (hNone : s.copies a = []) : s.Resting := by
  refine ⟨?_, hSolo.coherent.keyed, fun b => ?_⟩
  · -- nobody stands in any line, so nobody holds a row or waits for it
    intro id row hRow
    have hLine : row.line = [] := by
      rw [← line_of_get? hRow]
      refine hSolo.line_eq_nil ?_
      rw [locked, hNone]
      exact List.not_mem_nil
    obtain ⟨hHolder, hQueue⟩ := List.append_eq_nil_iff.mp hLine
    obtain ⟨committed, holder, queue⟩ := row
    obtain rfl : queue = [] := hQueue
    obtain rfl : holder = none := by simpa using hHolder
    rfl
  · by_cases hb : b = a
    · rw [hb]
      exact hNone
    · exact hSolo.others b hb

/-- A wallet of which it has no copy is in a row that is free. -/
theorem exists_row (hSolo : Solo a s) (hNew : id ∉ s.locked a) (hWallet : s.wallet? id = some w) :
    ∃ row, s.rows.get? id = some row ∧ row.committed = w ∧ row.holder = none := by
  obtain ⟨row, hRow, rfl⟩ := exists_row_of_wallet? hWallet
  refine ⟨row, hRow, rfl, ?_⟩
  rw [← holder?_of_get? hRow, hSolo.coherent.holder?_eq_head?, hSolo.line_eq_nil hNew]
  rfl

/-- An agent that is the only one at work stays so by its moves. -/
theorem of_moves {s' : Store} (hSolo : Solo a s) (loud : Bool)
    (hMoves : Moves a loud (none, s) (none, s')) : Solo a s' := by
  refine ⟨?_, fun b hb => (Moves.copies_eq hMoves hb).trans (hSolo.others b hb)⟩
  have hCoherent := Moves.coherent hMoves hSolo.coherent rfl
  rwa [show Function.update (fun _ => none) a none = fun _ => none from
    Function.update_eq_self a _] at hCoherent

/-- An agent that is the only one at work stays so. -/
theorem replied {isOpen : Bool} {answer : Result c.Answer} {woken : List Agent}
    (hSolo : Solo a l.store) (hFits : c.fits isOpen = true)
    (hClosed : isOpen = false → l.store.copies a = [])
    (hPerform : l.perform env a c = .replied answer l' woken) :
    Solo a l'.store ∧ Told (l.store.view a) (l'.store.view a) c answer ∧
      ((Event.answered a c answer).isLoud = false → l'.store.wallet? = l.store.wallet?) := by
  have hTold : (l.perform env a c).Told (l.store.view a) a :=
    Ledger.perform_told hSolo.coherent hFits hClosed
  have hMoves : Moves a (l.perform env a c).isLoud (none, l.store)
      ((l.perform env a c).row?, (l.perform env a c).store) :=
    Ledger.perform_moves hFits hClosed hSolo.coherent.keyed
  rw [hPerform] at hTold hMoves
  refine ⟨⟨?_, fun b hb => ?_⟩, hTold, fun hQuiet => ?_⟩
  · -- an answered call waits for nothing
    have hCoherent := Moves.coherent hMoves hSolo.coherent rfl
    rwa [show (Outcome.replied answer l' woken).row? = none from rfl,
      Function.update_eq_self_iff.mpr rfl] at hCoherent
  · exact (Moves.copies_eq hMoves hb).trans (hSolo.others b hb)
  · have hSilent : (Outcome.replied answer l' woken).isLoud = false := by
      cases answer <;> exact hQuiet
    rw [hSilent] at hMoves
    exact funext (Moves.wallet?_eq hMoves hSolo.coherent rfl)

end Solo

-- ---------------------------------------------------------------------------
-- What it is shown
-- ---------------------------------------------------------------------------

namespace View

variable {v v' : View} {w : Wallet}

theorem shown?_congr (hCopies : v'.copies = v.copies) (hWallets : v'.wallet? = v.wallet?) :
    v'.shown? = v.shown? := by
  obtain ⟨copies, wallet?⟩ := v
  obtain ⟨copies', wallet?'⟩ := v'
  obtain rfl : copies' = copies := hCopies
  obtain rfl : wallet?' = wallet? := hWallets
  rfl

/-- A wallet that is checked out is shown as its copy. -/
theorem shown?_concat (hNew : w.id ∉ v.locked) (hCopies : v'.copies = v.copies ++ [w])
    (hWallets : v'.wallet? = v.wallet?) :
    v'.shown? = Function.update v.shown? w.id (some w) := by
  funext x
  unfold shown? copy?
  rw [hCopies, hWallets, List.find?_append, List.find?_singleton]
  by_cases hx : x = w.id
  · subst hx
    have hNone : v.copies.find? (·.id = w.id) = none := by
      rw [List.find?_eq_none]
      intro c hMem hId
      exact hNew (List.mem_map.mpr ⟨c, hMem, of_decide_eq_true hId⟩)
    rw [hNone, Function.update_self, decide_eq_true rfl]
    exact Option.none_or
  · rw [Function.update_of_ne hx, decide_eq_false (Ne.symm hx), if_neg Bool.false_ne_true,
      Option.or_none]

/-- A wallet whose copy is revised is shown as it is revised. -/
theorem shown?_revise (hMem : w.id ∈ v.locked)
    (hCopies : v'.copies = v.copies.map fun c => if c.id = w.id then w else c)
    (hWallets : v'.wallet? = v.wallet?) :
    v'.shown? = Function.update v.shown? w.id (some w) := by
  funext x
  -- the copies have the ids that they had
  have hIds : (fun c : Wallet => decide (c.id = x)) ∘ (fun c => if c.id = w.id then w else c) =
      fun c => decide (c.id = x) := by
    funext c
    show decide ((if c.id = w.id then w else c).id = x) = decide (c.id = x)
    split
    · next hId => rw [hId]
    · rfl
  unfold shown? copy?
  rw [hCopies, hWallets, List.find?_map, hIds]
  by_cases hx : x = w.id
  · subst hx
    obtain ⟨c, hFound⟩ : ∃ c, v.copies.find? (·.id = w.id) = some c := by
      rw [← Option.isSome_iff_exists, List.find?_isSome]
      obtain ⟨c, hCopy, hId⟩ := List.mem_map.mp hMem
      exact ⟨c, hCopy, decide_eq_true hId⟩
    have hId : c.id = w.id := by simpa using List.find?_some hFound
    rw [hFound, Function.update_self, Option.map_some, if_pos hId]
    rfl
  · rw [Function.update_of_ne hx]
    cases hFound : v.copies.find? (·.id = x) with
    | none => rfl
    | some c =>
      have hId : c.id = x := by simpa using List.find?_some hFound
      rw [Option.map_some, if_neg (hId ▸ hx)]

end View

namespace Told

variable {v v' : View} {id : WalletId} {user : UserId} {amount : Decimal}

/-- To lock a wallet is to be shown what was shown before. -/
theorem shown?_lock {answer : Result (Option Wallet)} (hTold : Told v v' (.lock id user) answer)
    (hWallets : v'.wallet? = v.wallet?) (hKeyed : ∀ {x w}, v.shown? x = some w → w.id = x) :
    v'.shown? = v.shown? := by
  rcases answer with e | _ | w
  · exact View.shown?_congr hTold.1 hWallets
  · exact View.shown?_congr hTold hWallets
  · obtain ⟨hShown, -, hCopies⟩ := hTold
    obtain rfl : w.id = id := hKeyed hShown
    split at hCopies
    · exact View.shown?_congr hCopies hWallets
    · next hNew =>
      rw [View.shown?_concat hNew hCopies hWallets, ← hShown, Function.update_eq_self]

/-- What is shown after an amount was added within a transaction. -/
theorem shown?_addWithin_ok (hTold : Told v v' (.addWithin id amount) (.ok ()))
    (hWallets : v'.wallet? = v.wallet?) (hKeyed : ∀ {x w}, v.shown? x = some w → w.id = x) :
    ∃ w w' now, v.shown? id = some w ∧ w.adjust amount now = .ok w' ∧
      v'.shown? = Function.update v.shown? id (some w') := by
  obtain ⟨w, w', now, hShown, hAdjust, hCopies⟩ := hTold
  obtain rfl : w'.id = id := (Store.id_of_adjust hAdjust).trans (hKeyed hShown)
  refine ⟨w, w', now, hShown, hAdjust, ?_⟩
  split at hCopies
  · next hMem => exact View.shown?_revise hMem hCopies hWallets
  · next hNew => exact View.shown?_concat hNew hCopies hWallets

/-- An amount that is refused within a transaction leaves what is shown. -/
theorem shown?_addWithin_error {e : LedgerError}
    (hTold : Told v v' (.addWithin id amount) (.error e)) (hWallets : v'.wallet? = v.wallet?)
    (hKeyed : ∀ {x w}, v.shown? x = some w → w.id = x) : v'.shown? = v.shown? := by
  rcases hTold.1 with hSame | ⟨hNew, w, hWallet, hCopies⟩
  · exact View.shown?_congr hSame hWallets
  · have hShown : v.shown? id = some w := by
      unfold View.shown? View.copy?
      rw [List.find?_eq_none.mpr, hWallet]
      · rfl
      · intro c hMem hId
        exact hNew (List.mem_map.mpr ⟨c, hMem, of_decide_eq_true hId⟩)
    obtain rfl : w.id = id := hKeyed hShown
    rw [View.shown?_concat hNew hCopies hWallets, ← hShown, Function.update_eq_self]

end Told

-- ---------------------------------------------------------------------------
-- What calls leave alone
-- ---------------------------------------------------------------------------

/-- A store has the same wallets as before, changed or not, in their order, and the same updates are
made to fail. -/
structure Store.Keeps (s s' : Store) : Prop where
  ids : s'.rows.keys = s.rows.keys
  armed : s'.armed = s.armed

/-- A ledger is as before but for its wallets, its mint, its readings of the clock and its journal. -/
structure Ledger.Keeps (l l' : Ledger) : Prop where
  now : l'.now = l.now
  keys : l'.keys = l.keys
  failing : l'.failing = l.failing
  store : l.store.Keeps l'.store

theorem Ledger.Keeps.unhindered {l l' : Ledger} (hKeeps : l.Keeps l') (hFree : l.Unhindered) :
    l'.Unhindered := by
  refine ⟨?_, hKeeps.store.armed.trans hFree.armed⟩
  rw [hKeeps.failing]
  exact hFree.failing

namespace Store

variable {s s' s'' : Store}

theorem Keeps.refl (s : Store) : s.Keeps s := ⟨rfl, rfl⟩

theorem Keeps.trans (hFirst : s.Keeps s') (hSecond : s'.Keeps s'') : s.Keeps s'' :=
  ⟨hSecond.ids.trans hFirst.ids, hSecond.armed.trans hFirst.armed⟩

theorem keeps_modifyRow (s : Store) (id : WalletId) (f : Row → Row) : s.Keeps (s.modifyRow id f) :=
  ⟨keys_modifyRow s id f, rfl⟩

theorem keeps_release (s : Store) (id : WalletId) : s.Keeps (s.release id).1 := by
  rw [fst_release]
  exact s.keeps_modifyRow id _

theorem keeps_releaseAll (s : Store) (ids : List WalletId) : s.Keeps (s.releaseAll ids).1 := by
  induction ids generalizing s with
  | nil => exact .refl s
  | cons id ids ih => exact (s.keeps_release id).trans (ih _)

theorem keeps_drop (s : Store) (a : Agent) : s.Keeps (s.drop a).1 := by
  obtain ⟨hIds, hArmed⟩ :=
    keeps_releaseAll { s with transactions := s.transactions.erase a } (s.locked a)
  exact ⟨hIds, hArmed⟩

theorem keeps_foldl_publish (s : Store) (ws : List Wallet) : s.Keeps (ws.foldl publish s) := by
  induction ws generalizing s with
  | nil => exact .refl s
  | cons w ws ih => exact (s.keeps_modifyRow w.id _).trans (ih _)

theorem keeps_commit (s : Store) (a : Agent) : s.Keeps (s.commit a).1 :=
  (s.keeps_foldl_publish (s.copies a)).trans (keeps_drop _ a)

end Store

theorem Ledger.Keeps.trans {l l' l'' : Ledger} (hFirst : l.Keeps l') (hSecond : l'.Keeps l'') :
    l.Keeps l'' :=
  ⟨hSecond.now.trans hFirst.now, hSecond.keys.trans hFirst.keys,
    hSecond.failing.trans hFirst.failing, hFirst.store.trans hSecond.store⟩

-- ---------------------------------------------------------------------------
-- What an agent by itself is answered
-- ---------------------------------------------------------------------------

/-- What comes of adding an amount to a wallet that may not be there. -/
def Wallet.added (w? : Option Wallet) (amount : Decimal) (now : Timestamp) : Result Unit :=
  match w? with
  | none => .error .emptyWallet
  | some w => (w.adjust amount now).map fun _ => ()

/-- An amount that a wallet takes is added to it, whatever the time. -/
theorem Wallet.added_eq_ok {w w' : Wallet} {amount : Decimal} {now later : Timestamp}
    (hAdjust : w.adjust amount now = .ok w') : added (some w) amount later = .ok () := by
  obtain ⟨v, hLater, -⟩ := (Alike.refl w).adjust_ok hAdjust later
  unfold added
  simp only [hLater]
  rfl

/-- An agent that comes for a row that nobody has locked goes on at once. -/
theorem Store.acquire_unlocked {α : Type} {s : Store} {a : Agent} {id : WalletId} {row : Row}
    (hUnlocked : row.holder = none) (granted : Store → Store.Step α) :
    s.acquire a id row granted = granted (s.modifyRow id (·.entered a)) := by
  unfold acquire
  rw [hUnlocked]
  rfl

namespace Solo

open Store

variable {s : Store} {a : Agent} {id : WalletId} {row : Row} {amount : Decimal}

/-- It does not have to wait for a row that it comes for. -/
theorem acquire_eq {α : Type} (hSolo : Solo a s) (hNew : id ∉ s.locked a)
    (hRow : s.rows.get? id = some row) (granted : Store → Step α) :
    s.acquire a id row granted = granted (s.modifyRow id (·.entered a)) := by
  obtain ⟨row', hRow', -, hHolder⟩ := hSolo.exists_row hNew (wallet?_of_get? hRow)
  obtain rfl : row = row' := Option.some.inj (hRow.symm.trans hRow')
  exact acquire_unlocked hHolder granted

theorem wallet?_entered (hRow : s.rows.get? id = some row) :
    (s.modifyRow id (·.entered a)).wallet? id = some row.committed := by
  rw [wallet?_modifyRow fun _ => Row.committed_entered]
  exact wallet?_of_get? hRow

/-- A wallet is locked if it is shown as the user's. -/
theorem exists_lock (hSolo : Solo a s) (id : WalletId) (user : UserId) :
    ∃ s', s.lock a id user =
        .replied (.ok (((s.view a).shown? id).filter (·.isOwnedBy user))) s' [] ∧ s.Keeps s' := by
  unfold lock
  cases hCopy : s.copy? a id with
  | some w =>
    rw [shown?_of_copy? hCopy]
    exact ⟨s, rfl, .refl s⟩
  | none =>
    have hNew := copy?_eq_none_iff.mp hCopy
    rw [shown?_of_not_mem hNew]
    cases hRow : s.rows.get? id with
    | none =>
      refine ⟨s, ?_, .refl s⟩
      rw [wallet?, hRow]
      rfl
    | some row =>
      simp only [wallet?_of_get? hRow, hSolo.acquire_eq hNew hRow, lockGranted, wallet?_entered hRow,
        Option.filter_some]
      by_cases hOwned : row.committed.isOwnedBy user = true
      · simp only [if_pos hOwned]
        obtain ⟨hIds, hArmed⟩ := s.keeps_modifyRow id (·.entered a)
        exact ⟨_, rfl, hIds, hArmed⟩
      · simp only [if_neg hOwned]
        exact ⟨s, rfl, .refl s⟩

theorem exists_addToCopy (s : Store) (a : Agent) (w : Wallet) (amount : Decimal) (now : Timestamp) :
    ∃ s', s.addToCopy a w amount now = .replied (Wallet.added (some w) amount now) s' [] ∧
      s.Keeps s' := by
  unfold addToCopy Wallet.added
  simp only
  cases w.adjust amount now with
  | error e => exact ⟨s, rfl, .refl s⟩
  | ok w' => exact ⟨s.revise a w', rfl, rfl, rfl⟩

/-- An amount is added within a transaction if the wallet that is shown takes it. -/
theorem exists_addWithin (hSolo : Solo a s) (hArmed : id ∉ s.armed) (amount : Decimal)
    (now : Timestamp) :
    ∃ s', s.addWithin a id amount now =
        .replied (Wallet.added ((s.view a).shown? id) amount now) s' [] ∧ s.Keeps s' := by
  unfold addWithin
  rw [if_neg hArmed]
  cases hCopy : s.copy? a id with
  | some w =>
    rw [shown?_of_copy? hCopy]
    exact exists_addToCopy s a w amount now
  | none =>
    have hNew := copy?_eq_none_iff.mp hCopy
    rw [shown?_of_not_mem hNew]
    cases hRow : s.rows.get? id with
    | none =>
      refine ⟨s, ?_, .refl s⟩
      rw [wallet?, hRow]
      rfl
    | some row =>
      simp only [wallet?_of_get? hRow, hSolo.acquire_eq hNew hRow, addWithinGranted,
        wallet?_entered hRow]
      obtain ⟨s', hAdd, hKeeps⟩ := exists_addToCopy
        ((s.modifyRow id (·.entered a)).checkOut a row.committed) a row.committed amount now
      exact ⟨s', hAdd, (s.keeps_modifyRow id _).trans ⟨hKeeps.ids, hKeeps.armed⟩⟩

/-- An amount is added at once if the wallet takes it. -/
theorem exists_add (hSolo : Solo a s) (hNew : id ∉ s.locked a) (amount : Decimal)
    (now : Timestamp) :
    ∃ s' woken, s.add a id amount now =
        .replied (Wallet.added (s.wallet? id) amount now) s' woken ∧ s.Keeps s' := by
  unfold add
  cases hRow : s.rows.get? id with
  | none =>
    refine ⟨s, [], ?_, .refl s⟩
    rw [wallet?, hRow]
    rfl
  | some row =>
    simp only [wallet?_of_get? hRow, hSolo.acquire_eq hNew hRow, addGranted, wallet?_entered hRow,
      Wallet.added]
    have hEntered := s.keeps_modifyRow id (·.entered a)
    cases row.committed.adjust amount now with
    | error e => exact ⟨_, _, rfl, hEntered.trans (keeps_release _ _)⟩
    | ok w =>
      exact ⟨_, _, rfl, hEntered.trans ((keeps_modifyRow _ _ _).trans (keeps_release _ _))⟩

end Solo

namespace Ledger

open Store

variable {env : Surroundings} {l : Ledger} {a : Agent} {c : Call} {id : WalletId}

/-- Where no call is arranged to fail, calls are answered in earnest, once they are in the journal. -/
theorem exists_perform_of_failing (hNone : ∀ m, l.failing.get? m = none) (env : Surroundings)
    (a : Agent) (c : Call) : ∃ journal, l.perform env a c = execute env { l with journal } a c := by
  obtain ⟨journal, hRecord⟩ : ∃ journal, l.record a c = { l with journal } := by
    unfold record
    split
    · exact ⟨_, rfl⟩
    · exact ⟨l.journal, rfl⟩
  refine ⟨journal, ?_⟩
  unfold perform
  rw [hRecord]
  cases c.method? with
  | none => rfl
  | some m => simp only [hNone m]

/-- Then a call on a row comes to what the store makes of it, and so do the two after this one. -/
theorem exists_ofStep_lock (hNone : ∀ m, l.failing.get? m = none) (id : WalletId) (user : UserId)
    (env : Surroundings) (a : Agent) : ∃ journal, l.perform env a (.lock id user) =
      ofStep (c := .lock id user) { l with journal } (l.store.lock a id user) :=
  exists_perform_of_failing hNone env a (.lock id user)

theorem exists_ofStep_addWithin (hNone : ∀ m, l.failing.get? m = none) (id : WalletId)
    (amount : Decimal) (env : Surroundings) (a : Agent) :
    ∃ journal, l.perform env a (.addWithin id amount) =
      ofStep (c := .addWithin id amount) { l.read with journal }
        (l.store.addWithin a id amount (l.wallTime env)) :=
  exists_perform_of_failing hNone env a (.addWithin id amount)

theorem exists_ofStep_add (hNone : ∀ m, l.failing.get? m = none) (id : WalletId)
    (amount : Decimal) (env : Surroundings) (a : Agent) :
    ∃ journal, l.perform env a (.add id amount) =
      ofStep (c := .add id amount) { l.read with journal }
        (l.store.add a id amount (l.wallTime env)) :=
  exists_perform_of_failing hNone env a (.add id amount)

theorem Unhindered.exists_perform (hFree : l.Unhindered) (env : Surroundings) (a : Agent)
    (c : Call) : ∃ journal, l.perform env a c = execute env { l with journal } a c :=
  exists_perform_of_failing hFree.failing env a c

/-- To let a program run is to go on with what its first call is answered. -/
theorem drive_replied {α : Type} {answer : Result c.Answer} {l' : Ledger} {others : List Agent}
    (hPerform : l.perform env a c = .replied answer l' others)
    (next : Result c.Answer → Program α) (woken : List Agent) :
    l.drive env a (.call c next) woken = l'.drive env a (next answer) (woken ++ others) := by
  simp only [drive, hPerform]

theorem drive_faulted {α : Type} {fault : Fault} {l' : Ledger}
    (hPerform : l.perform env a c = .faulted fault l') (next : Result c.Answer → Program α)
    (woken : List Agent) : l.drive env a (.call c next) woken = .faulted fault l' woken := by
  simp only [drive, hPerform]

theorem exists_perform_begin (hFree : l.Unhindered) (env : Surroundings) (a : Agent) :
    ∃ l', l.perform env a .begin = .replied (.ok ()) l' [] ∧ l.Keeps l' := by
  obtain ⟨journal, hPerform⟩ := hFree.exists_perform env a .begin
  exact ⟨_, hPerform, rfl, rfl, rfl, rfl, rfl⟩

theorem exists_perform_commit (hFree : l.Unhindered) (env : Surroundings) (a : Agent) :
    ∃ l' woken, l.perform env a .commit = .replied (.ok ()) l' woken ∧ l.Keeps l' := by
  obtain ⟨journal, hPerform⟩ := hFree.exists_perform env a .commit
  exact ⟨_, _, hPerform, rfl, rfl, rfl, l.store.keeps_commit a⟩

theorem exists_perform_rollback (hFree : l.Unhindered) (env : Surroundings) (a : Agent) :
    ∃ l' woken, l.perform env a .rollback = .replied (.ok ()) l' woken ∧ l.Keeps l' := by
  obtain ⟨journal, hPerform⟩ := hFree.exists_perform env a .rollback
  exact ⟨_, _, hPerform, rfl, rfl, rfl, l.store.keeps_drop a⟩

theorem exists_perform_lock (hFree : l.Unhindered) (hSolo : Solo a l.store) (id : WalletId)
    (user : UserId) (env : Surroundings) :
    ∃ l', l.perform env a (.lock id user) =
        .replied (.ok (((l.store.view a).shown? id).filter (·.isOwnedBy user))) l' [] ∧
      l.Keeps l' := by
  obtain ⟨journal, hPerform⟩ := exists_ofStep_lock hFree.failing id user env a
  obtain ⟨s', hLock, hKeeps⟩ := hSolo.exists_lock id user
  rw [hLock] at hPerform
  exact ⟨_, hPerform, rfl, rfl, rfl, hKeeps⟩

theorem exists_perform_addWithin (hFree : l.Unhindered) (hSolo : Solo a l.store) (id : WalletId)
    (amount : Decimal) (env : Surroundings) :
    ∃ l', l.perform env a (.addWithin id amount) =
        .replied (Wallet.added ((l.store.view a).shown? id) amount (l.wallTime env)) l' [] ∧
      l.Keeps l' := by
  obtain ⟨journal, hPerform⟩ := exists_ofStep_addWithin hFree.failing id amount env a
  have hArmed : id ∉ l.store.armed := by
    rw [hFree.armed]
    exact List.not_mem_nil
  obtain ⟨s', hAdd, hKeeps⟩ := hSolo.exists_addWithin hArmed amount (l.wallTime env)
  rw [hAdd] at hPerform
  exact ⟨_, hPerform, rfl, rfl, rfl, hKeeps⟩

theorem exists_perform_add (hFree : l.Unhindered) (hSolo : Solo a l.store)
    (hNew : id ∉ l.store.locked a) (amount : Decimal) (env : Surroundings) :
    ∃ l' woken, l.perform env a (.add id amount) =
        .replied (Wallet.added (l.store.wallet? id) amount (l.wallTime env)) l' woken ∧
      l.Keeps l' := by
  obtain ⟨journal, hPerform⟩ := exists_ofStep_add hFree.failing id amount env a
  obtain ⟨s', woken, hAdd, hKeeps⟩ := hSolo.exists_add hNew amount (l.wallTime env)
  rw [hAdd] at hPerform
  exact ⟨_, _, hPerform, rfl, rfl, rfl, hKeeps⟩

/-- Whether a key is in use does not depend on anything in the store. -/
theorem exists_perform_claim (hNone : ∀ m, l.failing.get? m = none) (key : String)
    (env : Surroundings) (a : Agent) : ∃ journal, l.perform env a (.claim key) =
      match l.keys.claim l.now key with
      | .ok (inUse, keys) => .replied (.ok inUse) { l with journal, keys } []
      | .error fault => .faulted fault { l with journal } :=
  exists_perform_of_failing hNone env a (.claim key)

end Ledger

end Purse
