import Mathlib.Data.List.Zip
import Purse.Proofs.Crowd.Solo
import Purse.Proofs.Id.Wallet
import Purse.Proofs.Remote.Numeric
import Purse.Proofs.Service.Alike
import Purse.Remote.WalletTable

/-!
# Wallets in rows

A row shows a wallet when it has the same columns, but for the times and for the scale of the balance
(`Record.Shows`). A table keeps some wallets when it has a row for each of them, in the order in which
they came in (`Kept`). Each statement is then answered with rows of the wallets that it asks for, and
leaves a table that keeps the wallets as they are afterwards.

## Results

* `Record.Shows.exists_toWallet`: the wallet of a row matches the one that the row shows.
* `Kept.lock`, `Kept.get`, `Kept.list`: what is read.
* `Kept.insert`, `Kept.add_ok`, `Kept.add_error`: what is changed, and what is refused.
-/

namespace Purse

theorem forall₂_mergeSort {α β : Type} {R : α → β → Prop} {le : α → α → Bool}
    {le' : β → β → Bool} {as : List α} {bs : List β} (hRel : List.Forall₂ R as bs)
    (hOrder : ∀ {a a' b b'}, R a b → R a' b' → le a a' = le' b b') :
    List.Forall₂ R (as.mergeSort le) (bs.mergeSort le') := by
  -- both lists are sorted as one list of pairs is
  have hLength := hRel.length_eq
  have hPairs : ∀ p ∈ as.zip bs, R p.1 p.2 := fun p hMem => List.forall₂_zip hRel hMem
  have hFst : ((as.zip bs).mergeSort fun p q => le p.1 q.1).map Prod.fst = as.mergeSort le := by
    rw [List.map_mergeSort (f := Prod.fst) (s := le) fun _ _ _ _ => rfl, List.map_fst_zip hLength.le]
  have hSnd : ((as.zip bs).mergeSort fun p q => le p.1 q.1).map Prod.snd = bs.mergeSort le' := by
    rw [List.map_mergeSort fun p hp q hq => hOrder (hPairs p hp) (hPairs q hq),
      List.map_snd_zip hLength.ge]
  rw [← hFst, ← hSnd, List.forall₂_map_left_iff, List.forall₂_map_right_iff, List.forall₂_same]
  exact fun p hMem => hPairs p (List.mem_mergeSort.mp hMem)

theorem forall₂_exists_left {α β : Type} {R : α → β → Prop} {as : List α} {bs : List β} {b : β}
    (hRel : List.Forall₂ R as bs) (hMem : b ∈ bs) : ∃ a ∈ as, R a b := by
  induction hRel with
  | nil => simp at hMem
  | @cons a b' as bs hHead hTail ih =>
    rcases List.mem_cons.mp hMem with rfl | hRest
    · exact ⟨a, List.mem_cons_self, hHead⟩
    · obtain ⟨a', hMem', hPair⟩ := ih hRest
      exact ⟨a', List.mem_cons_of_mem a hMem', hPair⟩

namespace Remote

open WalletTable

-- ---------------------------------------------------------------------------
-- Rows
-- ---------------------------------------------------------------------------

/-- A row has the columns of a wallet, but for times and the scale of the balance. -/
structure Record.Shows (r : Record) (w : Wallet) : Prop where
  id : r.id = some w.id.text
  userId : r.userId = some w.userId
  balance : ∃ n, r.balance = some n ∧ n.Counts w.balance.units
  createdAt : r.createdAt.isSome = true
  updatedAt : r.updatedAt.isSome = true
  isDeleted : r.deletedAt.isSome = w.isDeleted
  createdBy : r.createdBy = some w.createdBy
  updatedBy : r.updatedBy = some w.updatedBy
  deletedBy : r.deletedBy = w.deletedBy

namespace Record.Shows

variable {r : Record} {w w' v : Wallet} {amount : Decimal} {now now' : Timestamp}

/-- The row that is stored for a wallet. -/
theorem ofWallet (hMatches : w.Matches v) : (Record.ofWallet v).Shows w where
  id := congrArg (fun id : WalletId => some id.text) hMatches.id
  userId := congrArg some hMatches.userId
  balance := ⟨_, rfl, hMatches.units ▸ Numeric.counts_ofDecimal v.balance⟩
  createdAt := rfl
  updatedAt := rfl
  isDeleted := hMatches.isDeleted
  createdBy := congrArg some hMatches.createdBy
  updatedBy := congrArg some hMatches.updatedBy
  deletedBy := hMatches.deletedBy

/-- The wallet of a row matches the one that the row shows. -/
theorem exists_toWallet (hShows : r.Shows w) : ∃ v, r.toWallet = .ok v ∧ w.Matches v := by
  obtain ⟨hId, hUserId, ⟨n, hBalance, hCounts⟩, hCreatedAt, hUpdatedAt, hDeleted, hCreatedBy,
    hUpdatedBy, hDeletedBy⟩ := hShows
  obtain ⟨createdAt, hCreatedAt⟩ := Option.isSome_iff_exists.mp hCreatedAt
  obtain ⟨updatedAt, hUpdatedAt⟩ := Option.isSome_iff_exists.mp hUpdatedAt
  obtain ⟨balance, hDecimal, hUnits⟩ := hCounts.exists_toDecimal? ⟨w.balance, rfl⟩
  refine ⟨⟨w.id, w.userId, balance, createdAt, updatedAt, r.deletedAt, w.createdBy, w.updatedBy,
    r.deletedBy⟩, ?_, rfl, rfl, hUnits, hDeleted, rfl, rfl, hDeletedBy⟩
  unfold toWallet
  rw [hId, hUserId, hBalance, hCreatedAt, hUpdatedAt, hCreatedBy, hUpdatedBy]
  simp only [need, readId, readBalance, WalletId.parse_text, hDecimal, bind, Except.bind, pure,
    Except.pure]

theorem isRowOf_eq (hShows : r.Shows w) (id : WalletId) : isRowOf id r = decide (w.id = id) := by
  unfold isRowOf
  rw [hShows.id, Bool.eq_iff_iff, beq_iff_eq, decide_eq_true_eq, Option.some_inj]
  exact ⟨WalletId.text_injective, congrArg WalletId.text⟩

theorem isNone_eq (hShows : r.Shows w) : r.deletedAt.isNone = !w.isDeleted := by
  rw [← hShows.isDeleted]
  cases r.deletedAt <;> rfl

theorem belongsTo_eq (hShows : r.Shows w) (user : UserId) :
    belongsTo user r = w.isOwnedBy user := by
  unfold belongsTo Wallet.isOwnedBy
  rw [hShows.userId, hShows.isNone_eq, Bool.and_comm]
  rfl

/-- A row whose balance is added to shows the wallet with the sum. -/
theorem adjusted (hShows : r.Shows w) (hAdjust : w.adjust amount now' = .ok w')
    (hSum : w'.balance.units = w.balance.units + amount.units) :
    (adjusted now (Numeric.ofDecimal amount) r).Shows w' := by
  obtain ⟨n, hBalance, hCounts⟩ := hShows.balance
  obtain ⟨-, -, -, hNew⟩ := Wallet.adjust_ok hAdjust
  have hAdded : (r.balance.map (·.add (Numeric.ofDecimal amount))) =
      some (n.add (Numeric.ofDecimal amount)) := by rw [hBalance]; rfl
  have hSumCounts := hCounts.add (Numeric.counts_ofDecimal amount)
  rw [← hSum] at hSumCounts
  have hKept : w'.id = w.id ∧ w'.userId = w.userId ∧ w'.isDeleted = w.isDeleted ∧
      w'.createdBy = w.createdBy ∧ w'.updatedBy = w.updatedBy ∧ w'.deletedBy = w.deletedBy := by
    rw [hNew]
    exact ⟨rfl, rfl, rfl, rfl, rfl, rfl⟩
  obtain ⟨hId, hUserId, hDeleted, hCreatedBy, hUpdatedBy, hDeletedBy⟩ := hKept
  exact ⟨hId ▸ hShows.id, hUserId ▸ hShows.userId, ⟨_, hAdded, hSumCounts⟩, hShows.createdAt, rfl,
    hDeleted ▸ hShows.isDeleted, hCreatedBy ▸ hShows.createdBy, hUpdatedBy ▸ hShows.updatedBy,
    hDeletedBy ▸ hShows.deletedBy⟩

/-- Whether a row would break the rule on balances shows in the exact sum. -/
theorem breaksRule_adjusted (hShows : r.Shows w) :
    breaksRule (WalletTable.adjusted now (Numeric.ofDecimal amount) r) =
      decide (w.balance.units + amount.units < 0) := by
  obtain ⟨n, hBalance, hCounts⟩ := hShows.balance
  unfold breaksRule WalletTable.adjusted
  rw [hBalance]
  exact (hCounts.add (Numeric.counts_ofDecimal amount)).isBelowZero_eq

end Record.Shows

-- ---------------------------------------------------------------------------
-- Tables
-- ---------------------------------------------------------------------------

/-- Some rows show the wallets of some ids, one for each and in their order. -/
structure Kept (ids : List WalletId) (wallet? : WalletId → Option Wallet) (rows : List Record) :
    Prop where
  nodup : ids.Nodup
  keyed : ∀ {id w}, wallet? id = some w → w.id = id
  mem_iff : ∀ {id}, id ∈ ids ↔ (wallet? id).isSome = true
  shows : List.Forall₂ (fun id r => ∃ w, wallet? id = some w ∧ r.Shows w) ids rows

namespace Kept

variable {ids : List WalletId} {wallet? : WalletId → Option Wallet} {rows : List Record}
  {t : WalletTable} {id : WalletId} {w w' v : Wallet} {user : UserId} {amount : Decimal}
  {now : Timestamp} {others : Collaborators WalletTable}

theorem empty : Kept [] (fun _ => none) [] :=
  ⟨List.nodup_nil, nofun, by simp, .nil⟩

/-! ## The row of an id -/

theorem filter_eq_nil (hKept : Kept ids wallet? rows) (hNone : wallet? id = none) :
    rows.filter (isRowOf id) = [] := by
  rw [List.filter_eq_nil_iff]
  intro r hMem
  obtain ⟨x, -, w, hWallet, hShows⟩ := forall₂_exists_left hKept.shows hMem
  rw [hShows.isRowOf_eq, decide_eq_true_eq, hKept.keyed hWallet]
  rintro rfl
  rw [hNone] at hWallet
  cases hWallet

theorem exists_filter_eq (hKept : Kept ids wallet? rows) (hWallet : wallet? id = some w) :
    ∃ r, rows.filter (isRowOf id) = [r] ∧ r.Shows w := by
  have hMem : id ∈ ids := by
    rw [hKept.mem_iff, hWallet]
    rfl
  obtain ⟨hNodup, hKeyed, -, hShows⟩ := hKept
  induction hShows with
  | nil => simp at hMem
  | @cons x r ids rows hHead hTail ih =>
    obtain ⟨v, hHere, hRow⟩ := hHead
    obtain ⟨hNot, hRest⟩ := List.nodup_cons.mp hNodup
    by_cases hx : x = id
    · -- the row of the id, of which there is no other
      subst hx
      obtain rfl : w = v := Option.some.inj (hWallet.symm.trans hHere)
      have hOthers : rows.filter (isRowOf x) = [] := by
        rw [List.filter_eq_nil_iff]
        intro r' hMem'
        obtain ⟨y, hy, u, hThere, hShown⟩ := forall₂_exists_left hTail hMem'
        rw [hShown.isRowOf_eq, decide_eq_true_eq, hKeyed hThere]
        rintro rfl
        exact hNot hy
      refine ⟨r, ?_, hRow⟩
      rw [List.filter_cons_of_pos, hOthers]
      rw [hRow.isRowOf_eq, decide_eq_true_eq]
      exact hKeyed hHere
    · obtain ⟨r', hFound, hShown⟩ := ih (List.mem_of_ne_of_mem (Ne.symm hx) hMem) hRest
      refine ⟨r', ?_, hShown⟩
      rw [List.filter_cons_of_neg, hFound]
      rw [hRow.isRowOf_eq, decide_eq_true_eq, hKeyed hHere]
      exact hx

/-! ## What is read -/

theorem exists_firstWallet {r : Record} (hShows : r.Shows w) :
    ∃ v, firstWallet [r] = .ok (some v) ∧ w.Matches v := by
  obtain ⟨v, hRead, hMatches⟩ := hShows.exists_toWallet
  refine ⟨v, ?_, hMatches⟩
  show some <$> r.toWallet = _
  rw [hRead]
  rfl

theorem get (hKept : Kept ids wallet? t.rows) (id : WalletId) (others : Collaborators WalletTable) :
    ∃ v, overDatabase WalletTable.answer others (.get id) t = (.ok v, t) ∧
      Option.Rel Wallet.Matches (wallet? id) v := by
  show ∃ v, (firstWallet (t.rows.filter (isRowOf id)), t) = (.ok v, t) ∧ _
  cases hWallet : wallet? id with
  | none =>
    rw [hKept.filter_eq_nil hWallet]
    exact ⟨none, rfl, .none⟩
  | some w =>
    obtain ⟨r, hFound, hShows⟩ := hKept.exists_filter_eq hWallet
    obtain ⟨v, hRead, hMatches⟩ := exists_firstWallet hShows
    rw [hFound, hRead]
    exact ⟨some v, rfl, .some hMatches⟩

theorem lock (hKept : Kept ids wallet? t.rows) (id : WalletId) (user : UserId)
    (others : Collaborators WalletTable) :
    ∃ v, overDatabase WalletTable.answer others (.lock id user) t = (.ok v, t) ∧
      Option.Rel Wallet.Matches ((wallet? id).filter (·.isOwnedBy user)) v := by
  show ∃ v, (firstWallet (t.rows.filter fun r => isRowOf id r && belongsTo user r), t) =
    (.ok v, t) ∧ _
  have hSplit : (t.rows.filter fun r => isRowOf id r && belongsTo user r) =
      (t.rows.filter (isRowOf id)).filter (belongsTo user) := by
    rw [List.filter_filter]
    exact List.filter_congr fun r _ => Bool.and_comm _ _
  rw [hSplit]
  cases hWallet : wallet? id with
  | none =>
    rw [hKept.filter_eq_nil hWallet]
    exact ⟨none, rfl, .none⟩
  | some w =>
    obtain ⟨r, hFound, hShows⟩ := hKept.exists_filter_eq hWallet
    rw [hFound, Option.filter_some, List.filter_singleton, hShows.belongsTo_eq]
    by_cases hOwned : w.isOwnedBy user = true
    · obtain ⟨v, hRead, hMatches⟩ := exists_firstWallet hShows
      rw [if_pos hOwned, hOwned, cond_true, hRead]
      exact ⟨some v, rfl, .some hMatches⟩
    · rw [if_neg hOwned, Bool.eq_false_iff.mpr hOwned]
      exact ⟨none, rfl, .none⟩

/-- The rows show the wallets, in the order of the ids. -/
theorem forall₂_wallets (hKept : Kept ids wallet? rows) :
    List.Forall₂ (fun w r => Record.Shows r w) (ids.filterMap wallet?) rows := by
  obtain ⟨-, -, -, hShows⟩ := hKept
  induction hShows with
  | nil => exact .nil
  | cons hHead hTail ih =>
    obtain ⟨w, hWallet, hRow⟩ := hHead
    rw [List.filterMap_cons_some hWallet]
    exact .cons hRow ih

/-- Rows that show some wallets are read as wallets that match them. -/
theorem exists_allWallets {ws : List Wallet}
    (hShows : List.Forall₂ (fun w r => Record.Shows r w) ws rows) :
    ∃ vs, allWallets rows = .ok vs ∧ List.Forall₂ Wallet.Matches ws vs := by
  unfold allWallets
  induction hShows with
  | nil => exact ⟨[], rfl, .nil⟩
  | @cons w r ws rows hHead hTail ih =>
    obtain ⟨v, hRead, hMatches⟩ := hHead.exists_toWallet
    obtain ⟨vs, hRest, hAll⟩ := ih
    refine ⟨v :: vs, ?_, .cons hMatches hAll⟩
    rw [List.mapM_cons, hRead, hRest]
    rfl

/-- The live wallets of a user are listed in one order, by the values of ids or by their texts. -/
theorem list (hKept : Kept ids wallet? t.rows) (user : UserId)
    (others : Collaborators WalletTable) :
    ∃ vs, overDatabase WalletTable.answer others (.list user) t = (.ok vs, t) ∧
      List.Forall₂ Wallet.Matches
        (((ids.filterMap wallet?).filter (·.isOwnedBy user)).mergeSort
          fun a b => a.id.val ≤ b.id.val) vs := by
  have hOwned : List.Forall₂ (fun w r => Record.Shows r w)
      ((ids.filterMap wallet?).filter (·.isOwnedBy user)) (t.rows.filter (belongsTo user)) := by
    refine List.rel_filter (fun w r hShows => ?_) hKept.forall₂_wallets
    show w.isOwnedBy user = true ↔ belongsTo user r = true
    rw [hShows.belongsTo_eq]
  have hSorted : List.Forall₂ (fun w r => Record.Shows r w)
      (((ids.filterMap wallet?).filter (·.isOwnedBy user)).mergeSort
        fun a b => a.id.val ≤ b.id.val) (t.list user) := by
    refine forall₂_mergeSort hOwned fun hShows hShows' => ?_
    rw [hShows.id, hShows'.id]
    exact decide_eq_decide.mpr WalletId.text_le_text.symm
  obtain ⟨vs, hRead, hAll⟩ := exists_allWallets hSorted
  refine ⟨vs, ?_, hAll⟩
  show (allWallets (t.list user), t) = (.ok vs, t)
  rw [hRead]

/-! ## What is changed -/

/-- A new row keeps a new wallet. -/
theorem concat {r : Record} (hKept : Kept ids wallet? rows) (hNone : wallet? w.id = none)
    (hShows : r.Shows w) :
    Kept (ids ++ [w.id]) (Function.update wallet? w.id (some w)) (rows ++ [r]) := by
  have hNew : w.id ∉ ids := by
    rw [hKept.mem_iff, hNone]
    exact Bool.false_ne_true
  refine ⟨List.nodup_append_comm.mp (List.nodup_cons.mpr ⟨hNew, hKept.nodup⟩), ?_, ?_, ?_⟩
  · intro x v hWallet
    by_cases hx : x = w.id
    · subst hx
      rw [Function.update_self] at hWallet
      rw [← Option.some.inj hWallet]
    · rw [Function.update_of_ne hx] at hWallet
      exact hKept.keyed hWallet
  · intro x
    rw [List.mem_append, List.mem_singleton]
    by_cases hx : x = w.id
    · simp [hx]
    · rw [Function.update_of_ne hx, hKept.mem_iff]
      simp [hx]
  · refine List.rel_append (hKept.shows.imp fun x r hRow => ?_)
      (.cons ⟨w, Function.update_self .., hShows⟩ .nil)
    obtain ⟨v, hHere, hShown⟩ := hRow
    have hx : x ≠ w.id := by
      rintro rfl
      rw [hNone] at hHere
      cases hHere
    rw [Function.update_of_ne hx]
    exact ⟨v, hHere, hShown⟩

/-- Rows of a live wallet that are changed keep the wallet as it is changed. -/
theorem update {after : Record → Record} (hKept : Kept ids wallet? rows)
    (hWallet : wallet? id = some w) (hLive : w.isDeleted = false) (hId : w'.id = w.id)
    (hAfter : ∀ {r : Record}, r.Shows w → (after r).Shows w') :
    Kept ids (Function.update wallet? id (some w'))
      (rows.map fun r => if isLiveRowOf id r then after r else r) := by
  refine ⟨hKept.nodup, ?_, ?_, ?_⟩
  · intro x v hNow
    by_cases hx : x = id
    · subst hx
      rw [Function.update_self] at hNow
      rw [← Option.some.inj hNow, hId]
      exact hKept.keyed hWallet
    · rw [Function.update_of_ne hx] at hNow
      exact hKept.keyed hNow
  · intro x
    by_cases hx : x = id
    · subst hx
      rw [hKept.mem_iff, hWallet, Function.update_self]
      rfl
    · rw [Function.update_of_ne hx]
      exact hKept.mem_iff
  · rw [List.forall₂_map_right_iff]
    refine hKept.shows.imp fun x r hRow => ?_
    obtain ⟨v, hHere, hShows⟩ := hRow
    have hLiveRow : isLiveRowOf id r = (decide (v.id = id) && !v.isDeleted) := by
      unfold isLiveRowOf
      rw [hShows.isRowOf_eq, hShows.isNone_eq]
    rw [hLiveRow, hKept.keyed hHere]
    by_cases hx : x = id
    · subst hx
      obtain rfl : w = v := Option.some.inj (hWallet.symm.trans hHere)
      rw [hLive, Function.update_self, decide_eq_true rfl]
      exact ⟨w', rfl, hAfter hShows⟩
    · rw [decide_eq_false hx, Function.update_of_ne hx]
      exact ⟨v, hHere, hShows⟩

/-- A wallet without anything below zero in it breaks no rule on balances. -/
theorem breaksRule_ofWallet (hMatches : w.Matches v) (hBalance : w.balance.isBelowZero = false) :
    breaksRule (Record.ofWallet v) = false := by
  show (Numeric.ofDecimal v.balance).isBelowZero = false
  rw [(Numeric.counts_ofDecimal v.balance).isBelowZero_eq, hMatches.units]
  exact hBalance

/-- A row is added where there is none of the id. -/
theorem insert_ok (hKept : Kept ids wallet? t.rows) (hMatches : w.Matches v)
    (hBalance : w.balance.isBelowZero = false) (hNone : wallet? w.id = none)
    (others : Collaborators WalletTable) :
    ∃ t', overDatabase WalletTable.answer others (.insert v) t = (.ok (), t') ∧
      t'.saved = t.saved ∧
      Kept (ids ++ [w.id]) (Function.update wallet? w.id (some w)) t'.rows := by
  have hAny : t.rows.any (isRowOf v.id) = false := by
    rw [hMatches.id, List.any_eq_false]
    exact List.filter_eq_nil_iff.mp (hKept.filter_eq_nil hNone)
  have hInsert : t.insert v = (.ok 1, { t with rows := t.rows ++ [Record.ofWallet v] }) := by
    unfold WalletTable.insert
    simp only [breaksRule_ofWallet hMatches hBalance, hAny]
    rfl
  refine ⟨{ t with rows := t.rows ++ [Record.ofWallet v] }, ?_, rfl,
    hKept.concat hNone (.ofWallet hMatches)⟩
  show ((⟨.insert v, fun _ => .ok ()⟩ : Inquiry Unit).result (t.insert v).1, (t.insert v).2) = _
  rw [hInsert]
  rfl

/-- No row is added where there is one of the id. -/
theorem insert_error (hKept : Kept ids wallet? t.rows) (hMatches : w.Matches v)
    (hBalance : w.balance.isBelowZero = false) (hSome : (wallet? w.id).isSome = true)
    (others : Collaborators WalletTable) :
    overDatabase WalletTable.answer others (.insert v) t = (.error .alreadyExists, t) := by
  obtain ⟨u, hWallet⟩ := Option.isSome_iff_exists.mp hSome
  obtain ⟨r, hFound, -⟩ := hKept.exists_filter_eq hWallet
  have hAny : t.rows.any (isRowOf v.id) = true := by
    rw [hMatches.id, List.any_eq_true]
    have hMem : r ∈ t.rows.filter (isRowOf w.id) := by
      rw [hFound]
      exact List.mem_singleton_self r
    exact ⟨r, List.mem_filter.mp hMem⟩
  have hInsert : t.insert v = (.error (.refused DatabaseFault.duplicate "duplicate id"), t) := by
    unfold WalletTable.insert
    simp only [breaksRule_ofWallet hMatches hBalance, hAny]
    rfl
  show ((⟨.insert v, fun _ => .ok ()⟩ : Inquiry Unit).result (t.insert v).1, (t.insert v).2) = _
  rw [hInsert]
  rfl

/-! ## What is added -/

/-- The live row of an id, if there is one. -/
theorem filter_isLiveRowOf (rows : List Record) (id : WalletId) :
    rows.filter (isLiveRowOf id) = (rows.filter (isRowOf id)).filter (·.deletedAt.isNone) := by
  rw [List.filter_filter]
  exact List.filter_congr fun r _ => Bool.and_comm _ _

/-- The answer to the statement, as the answer to the call. -/
theorem add_eq {t' : WalletTable} {answer : Except DatabaseFault Nat}
    (hAdd : t.add id amount = (answer, t')) (others : Collaborators WalletTable) :
    overDatabase WalletTable.answer others (.add id amount) t =
      ((⟨.add id amount, requireRow⟩ : Inquiry Unit).result answer, t') := by
  show ((⟨.add id amount, requireRow⟩ : Inquiry Unit).result (t.add id amount).1,
    (t.add id amount).2) = _
  rw [hAdd]

/-- Nothing is added where there is no live row of the id. -/
theorem add_of_filter_eq_nil (hNone : t.rows.filter (isLiveRowOf id) = []) :
    t.add id amount = (.ok 0, t) := by
  have hSame : (t.rows.map fun r => if isLiveRowOf id r then
      adjusted t.now (Numeric.ofDecimal amount) r else r) = t.rows := by
    refine (List.map_congr_left fun r hMem => ?_).trans t.rows.map_id
    rw [if_neg (List.filter_eq_nil_iff.mp hNone r hMem)]
    rfl
  unfold WalletTable.add
  simp only [hNone, hSame]
  rfl

theorem exists_filter_isLiveRowOf (hKept : Kept ids wallet? rows) (hWallet : wallet? id = some w)
    (hLive : w.isDeleted = false) : ∃ r, rows.filter (isLiveRowOf id) = [r] ∧ r.Shows w := by
  obtain ⟨r, hFound, hShows⟩ := hKept.exists_filter_eq hWallet
  refine ⟨r, ?_, hShows⟩
  rw [filter_isLiveRowOf, hFound, List.filter_singleton, hShows.isNone_eq, hLive]
  rfl

/-- An amount is added to the row of a live wallet that takes it. -/
theorem add_ok (hKept : Kept ids wallet? t.rows) (hWallet : wallet? id = some w)
    (hFits : Decimal.SumFits w.balance amount) (hAdjust : w.adjust amount now = .ok w')
    (others : Collaborators WalletTable) :
    ∃ t', overDatabase WalletTable.answer others (.add id amount) t = (.ok (), t') ∧
      t'.saved = t.saved ∧ Kept ids (Function.update wallet? id (some w')) t'.rows := by
  obtain ⟨hLive, hAdd, hNot, hNew⟩ := Wallet.adjust_ok hAdjust
  obtain ⟨sum, hAdd', hSum⟩ := Decimal.exists_add? hFits
  obtain rfl : w'.balance = sum := Option.some.inj (hAdd.symm.trans hAdd')
  obtain ⟨r, hFound, hShows⟩ := hKept.exists_filter_isLiveRowOf hWallet hLive
  have hRule : breaksRule (adjusted t.now (Numeric.ofDecimal amount) r) = false := by
    rw [hShows.breaksRule_adjusted, ← hSum]
    exact hNot
  have hChanged : t.add id amount = (.ok 1, { t with
      rows := t.rows.map fun r =>
        if isLiveRowOf id r then adjusted t.now (Numeric.ofDecimal amount) r else r }) := by
    unfold WalletTable.add
    simp only [hFound, List.any_cons, List.any_nil, hRule]
    rfl
  have hId : w'.id = w.id := by rw [hNew]
  exact ⟨_, add_eq hChanged others, rfl, hKept.update hWallet hLive hId fun hShows =>
    hShows.adjusted hAdjust hSum⟩

/-- What a wallet refuses is refused by its row, for the same reason, and nothing changes. -/
theorem add_error {e : LedgerError} (hKept : Kept ids wallet? t.rows)
    (hFits : ∀ w ∈ wallet? id, Decimal.SumFits w.balance amount)
    (hError : Wallet.added (wallet? id) amount now = .error e)
    (others : Collaborators WalletTable) :
    overDatabase WalletTable.answer others (.add id amount) t = (.error e, t) := by
  cases hWallet : wallet? id with
  | none =>
    rw [hWallet] at hError
    obtain rfl : LedgerError.emptyWallet = e := Except.error.inj hError
    refine add_eq (add_of_filter_eq_nil ?_) others
    rw [filter_isLiveRowOf, hKept.filter_eq_nil hWallet]
    rfl
  | some w =>
    rw [hWallet] at hError hFits
    cases hLive : w.isDeleted with
    | true =>
      obtain ⟨r, hFound, hShows⟩ := hKept.exists_filter_eq hWallet
      have hEmpty : w.adjust amount now = .error .emptyWallet := if_pos hLive
      obtain rfl : LedgerError.emptyWallet = e := by
        simpa [Wallet.added, hEmpty, Except.map] using hError
      refine add_eq (add_of_filter_eq_nil ?_) others
      rw [filter_isLiveRowOf, hFound, List.filter_singleton, hShows.isNone_eq, hLive]
      rfl
    | false =>
      obtain ⟨r, hFound, hShows⟩ := hKept.exists_filter_isLiveRowOf hWallet hLive
      by_cases hBelow : w.balance.units + amount.units < 0
      · -- the rule on balances takes the place of the check
        have hShort := Wallet.adjust_short (hFits w rfl) hLive hBelow now
        obtain rfl : LedgerError.insufficientBalance = e := by
          simpa [Wallet.added, hShort, Except.map] using hError
        have hRule : breaksRule (adjusted t.now (Numeric.ofDecimal amount) r) = true := by
          rw [hShows.breaksRule_adjusted]
          exact decide_eq_true hBelow
        have hRefused : t.add id amount = (.error refusal, t) := by
          unfold WalletTable.add
          simp only [hFound, List.any_cons, List.any_nil, hRule]
          rfl
        exact add_eq hRefused others
      · obtain ⟨w', hAdjust, -⟩ := Wallet.exists_adjust (hFits w rfl) hLive hBelow now
        simp [Wallet.added, hAdjust, Except.map] at hError

end Kept

end Remote

end Purse
