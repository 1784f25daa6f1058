import Purse.Proofs.Result
import Purse.Proofs.Crowd.Sound

/-!
# What holds at each stage of a transfer

At every stage the copies of a transfer are known: which wallets they are of, and how they differ
from the committed ones (`Stage.Holds`). Every answer leads from a stage at which this holds to the
next one, and a transfer that is over has no copies (`Stage.Holds.after`).

## Results

* `Transfer.check_ok`, `Transfer.check_failsOnly`: what is known of a transfer that passes its checks,
  and of the error of one that does not.
* `Stage.Holds.after`: from stage to stage.
* `Stage.Holds.locking`: a transfer waits for its locks only.
* `Stage.Holds.locked_sublist`, `Stage.Holds.append_sublist`: the copies are of the two wallets, in
  the order of locking, and so is a row that the transfer has to wait for.
-/

namespace Purse

-- ---------------------------------------------------------------------------
-- Checked transfers
-- ---------------------------------------------------------------------------

/-- The two users of a transfer are not one, and its amount is above zero. -/
structure Legs.Proper (legs : Legs) : Prop where
  users : legs.sender.user ≠ legs.receiver.user
  amount : 0 < legs.amount.units

theorem sameUser_self {a b : String} {user : UserId} (hA : UserId.parseTrimmed? a = some user)
    (hB : UserId.parseTrimmed? b = some user) : sameUser a b = true := by
  simp [sameUser, hA, hB]

theorem Transfer.check_ok {request : Transfer} {legs : Legs} (hCheck : request.check = .ok legs) :
    legs.Proper := by
  unfold check at hCheck
  simp only [bind, Except.bind, pure, Except.pure, throw, throwThe, MonadExceptOf.throw] at hCheck
  split at hCheck
  · simp at hCheck
  · next hSame =>
    split at hCheck
    · simp at hCheck
    · next hAmount =>
      cases hSender : UserId.parseTrimmed? request.senderId with
      | none => simp [hSender, required] at hCheck
      | some sender =>
        cases hReceiver : UserId.parseTrimmed? request.receiverId with
        | none => simp [hSender, hReceiver, required] at hCheck
        | some receiver =>
          simp only [hSender, hReceiver, required] at hCheck
          split at hCheck
          · simp at hCheck
          · split at hCheck
            · simp at hCheck
            · obtain rfl := Except.ok.inj hCheck
              have hZero : Decimal.zero.units = 0 := by decide
              refine ⟨?_, ?_⟩
              · intro (hUsers : sender = receiver)
                rw [hUsers] at hSender
                exact hSame (sameUser_self hSender hReceiver)
              · simpa [Decimal.le, hZero] using hAmount

/-- A transfer that does not pass its checks is refused over its own content. -/
theorem Transfer.check_failsOnly (r : Transfer) : FailsOnly (·.isValidation = true) r.check := by
  have hRequired : ∀ {α : Type} (x : Option α), FailsOnly (·.isValidation = true) (required x) := by
    intro α x
    cases x with
    | none => exact FailsOnly.error rfl
    | some a => exact FailsOnly.ok a
  unfold check
  simp only [throw, throwThe, MonadExceptOf.throw]
  split
  · exact FailsOnly.error rfl
  · split
    · exact FailsOnly.error rfl
    · exact (hRequired _).bind fun sender => (hRequired _).bind fun receiver =>
        (hRequired _).bind fun senderWallet => (hRequired _).bind fun receiverWallet =>
          FailsOnly.ok _

-- ---------------------------------------------------------------------------
-- The copies of a transfer
-- ---------------------------------------------------------------------------

/-- A party has its wallet, as committed. -/
structure Party.Owns (v : View) (p : Party) (w : Wallet) : Prop where
  committed : v.wallet? p.wallet = some w
  id : w.id = p.wallet
  owned : w.isOwnedBy p.user = true

theorem Party.Owns.congr {v v' : View} {p : Party} {w : Wallet} (hOwns : p.Owns v w)
    (hSame : v'.wallet? p.wallet = v.wallet? p.wallet) : p.Owns v' w :=
  ⟨hSame.trans hOwns.committed, hOwns.id, hOwns.owned⟩

namespace Legs

variable {legs : Legs} {v v' : View} {sender receiver : Wallet}

/-- Both parties have their wallets, and the sender's balance covers the amount. -/
structure Ready (legs : Legs) (v : View) (sender receiver : Wallet) : Prop where
  debtor : legs.sender.Owns v sender
  creditor : legs.receiver.Owns v receiver
  distinct : sender.id ≠ receiver.id
  covered : sender.balance.lt legs.amount = false

/-- Whether both parties are ready shows in their two committed wallets. -/
theorem Ready.congr (hReady : legs.Ready v sender receiver)
    (hSender : v'.wallet? sender.id = v.wallet? sender.id)
    (hReceiver : v'.wallet? receiver.id = v.wallet? receiver.id) :
    legs.Ready v' sender receiver := by
  obtain ⟨hDebtor, hCreditor, hDistinct, hCovered⟩ := hReady
  rw [hDebtor.id] at hSender
  rw [hCreditor.id] at hReceiver
  exact ⟨hDebtor.congr hSender, hCreditor.congr hReceiver, hDistinct, hCovered⟩

/-- The copies of both wallets, in the order of locking. -/
@[irreducible] def inOrder (legs : Legs) (sender receiver : Wallet) : List Wallet :=
  if legs.senderLocksFirst then [sender, receiver] else [receiver, sender]

/-- The wallets of the parties, in the order of locking. -/
def rows (legs : Legs) : List WalletId := [legs.lockOrder.1.wallet, legs.lockOrder.2.wallet]

theorem mem_inOrder {w : Wallet} :
    w ∈ legs.inOrder sender receiver ↔ w = sender ∨ w = receiver := by
  unfold inOrder
  split
  · simp
  · simp [or_comm]

theorem map_id_inOrder (hSender : sender.id = legs.sender.wallet)
    (hReceiver : receiver.id = legs.receiver.wallet) :
    (legs.inOrder sender receiver).map Wallet.id = legs.rows := by
  unfold inOrder rows lockOrder
  split <;> simp [hSender, hReceiver]

theorem find?_sender (hDistinct : sender.id ≠ receiver.id) :
    (legs.inOrder sender receiver).find? (·.id = sender.id) = some sender := by
  unfold inOrder
  split <;> simp [Ne.symm hDistinct]

theorem find?_receiver (hDistinct : sender.id ≠ receiver.id) :
    (legs.inOrder sender receiver).find? (·.id = receiver.id) = some receiver := by
  unfold inOrder
  split <;> simp [hDistinct]

theorem map_sender {sender' : Wallet} (hDistinct : sender.id ≠ receiver.id)
    (hId : sender'.id = sender.id) :
    (legs.inOrder sender receiver).map (fun c => if c.id = sender'.id then sender' else c) =
      legs.inOrder sender' receiver := by
  unfold inOrder
  split <;> simp [hId, Ne.symm hDistinct]

theorem map_receiver {receiver' : Wallet} (hDistinct : sender.id ≠ receiver.id)
    (hId : receiver'.id = receiver.id) :
    (legs.inOrder sender receiver).map (fun c => if c.id = receiver'.id then receiver' else c) =
      legs.inOrder sender receiver' := by
  unfold inOrder
  split <;> simp [hId, hDistinct]

theorem mem_locked (hCopies : v.copies = legs.inOrder sender receiver) {w : Wallet}
    (hMem : w = sender ∨ w = receiver) : w.id ∈ v.locked := by
  rw [View.locked, hCopies]
  exact List.mem_map_of_mem (mem_inOrder.mpr hMem)

theorem shown?_sender (hCopies : v.copies = legs.inOrder sender receiver)
    (hDistinct : sender.id ≠ receiver.id) : v.shown? sender.id = some sender := by
  rw [View.shown?, View.copy?, hCopies, find?_sender hDistinct]
  rfl

theorem shown?_receiver (hCopies : v.copies = legs.inOrder sender receiver)
    (hDistinct : sender.id ≠ receiver.id) : v.shown? receiver.id = some receiver := by
  rw [View.shown?, View.copy?, hCopies, find?_receiver hDistinct]
  rfl

end Legs

namespace Stage

variable {legs : Legs} {v v' : View} {stage : Stage}

/-- What is known of a transfer's copies at a stage. -/
def Holds (legs : Legs) (v : View) : Stage → Prop
  | opening | lockingFirst | lockingSecond none => v.copies = []
  | lockingSecond (some first) => v.copies = [first] ∧ legs.lockOrder.1.Owns v first
  | debiting sender receiver =>
    legs.Ready v sender receiver ∧ v.copies = legs.inOrder sender receiver
  | crediting sender receiver => legs.Ready v sender receiver ∧
    ∃ sender' now, sender.adjust legs.amount.neg now = .ok sender' ∧
      v.copies = legs.inOrder sender' receiver
  | committing sender receiver => legs.Ready v sender receiver ∧
    ∃ sender' receiver' now now', sender.adjust legs.amount.neg now = .ok sender' ∧
      receiver.adjust legs.amount now' = .ok receiver' ∧
      v.copies = legs.inOrder sender' receiver'
  | undoing _ => v.locked.Sublist legs.rows

/-- At every stage the copies are of the two wallets, in the order of locking. -/
theorem Holds.locked_sublist (hHolds : stage.Holds legs v) : v.locked.Sublist legs.rows := by
  unfold View.locked
  cases stage with
  | opening | lockingFirst =>
    rw [show v.copies = [] from hHolds]
    exact List.nil_sublist _
  | lockingSecond first =>
    cases first with
    | none =>
      rw [show v.copies = [] from hHolds]
      exact List.nil_sublist _
    | some first =>
      obtain ⟨hCopies, hOwns⟩ := hHolds
      rw [hCopies, List.map_singleton, hOwns.id]
      exact List.Sublist.cons_cons _ (List.nil_sublist _)
  | debiting sender receiver =>
    obtain ⟨hReady, hCopies⟩ := hHolds
    have hIds := Legs.map_id_inOrder hReady.debtor.id hReady.creditor.id
    simp only [hCopies, hIds, List.Sublist.refl]
  | crediting sender receiver =>
    obtain ⟨hReady, sender', now, hDebit, hCopies⟩ := hHolds
    have hIds := Legs.map_id_inOrder
      ((Store.id_of_adjust hDebit).trans hReady.debtor.id) hReady.creditor.id
    simp only [hCopies, hIds, List.Sublist.refl]
  | committing sender receiver =>
    obtain ⟨hReady, sender', receiver', now, now', hDebit, hCredit, hCopies⟩ := hHolds
    have hIds := Legs.map_id_inOrder
      ((Store.id_of_adjust hDebit).trans hReady.debtor.id)
      ((Store.id_of_adjust hCredit).trans hReady.creditor.id)
    simp only [hCopies, hIds, List.Sublist.refl]
  | undoing e => exact hHolds

/-- A transfer waits for its locks only: the wallets that it changes are its own by then. -/
theorem Holds.locking {id : WalletId} (hHolds : stage.Holds legs v)
    (hRow : (stage.call legs).row? = some id) (hNew : id ∉ v.locked) :
    stage = lockingFirst ∨ ∃ first, stage = lockingSecond first := by
  cases stage with
  | lockingFirst => exact Or.inl rfl
  | lockingSecond first => exact Or.inr ⟨first, rfl⟩
  | debiting sender receiver =>
    -- both copies are there by now
    obtain rfl := Option.some.inj hRow
    exact absurd (Legs.mem_locked hHolds.2 (Or.inl rfl)) hNew
  | crediting sender receiver =>
    obtain rfl := Option.some.inj hRow
    obtain ⟨-, sender', now, -, hCopies⟩ := hHolds
    exact absurd (Legs.mem_locked hCopies (Or.inr rfl)) hNew
  | opening | committing | undoing => simp [call, Call.row?] at hRow

/-- A row that a transfer has to wait for comes next in the order of locking. -/
theorem Holds.append_sublist {id : WalletId} (hHolds : stage.Holds legs v)
    (hRow : (stage.call legs).row? = some id) (hNew : id ∉ v.locked) :
    (v.locked ++ [id]).Sublist legs.rows := by
  obtain rfl | ⟨first, rfl⟩ := hHolds.locking hRow hNew
  · obtain rfl := Option.some.inj hRow
    rw [View.locked, show v.copies = [] from hHolds]
    exact List.Sublist.cons_cons _ (List.nil_sublist _)
  · obtain rfl := Option.some.inj hRow
    cases first with
    | none =>
      rw [View.locked, show v.copies = [] from hHolds]
      exact List.Sublist.cons _ (List.Sublist.refl _)
    | some first =>
      obtain ⟨hCopies, hOwns⟩ := hHolds
      rw [View.locked, hCopies, List.map_singleton, hOwns.id]
      exact List.Sublist.refl _

/-- What holds at a stage shows in the copies and in the committed wallets they are of. -/
theorem Holds.congr (hHolds : stage.Holds legs v) (hCopies : v'.copies = v.copies)
    (hSame : ∀ id ∈ v.locked, v'.wallet? id = v.wallet? id) : stage.Holds legs v' := by
  -- copies of both wallets are there from the debit on, revised or not
  have hReady : ∀ {sender receiver sender' receiver'}, legs.Ready v sender receiver →
      sender'.id = sender.id → receiver'.id = receiver.id →
      v.copies = legs.inOrder sender' receiver' → legs.Ready v' sender receiver := by
    intro sender receiver sender' receiver' hReady hSender hReceiver hAll
    refine hReady.congr (hSame _ ?_) (hSame _ ?_)
    · rw [← hSender]
      exact Legs.mem_locked hAll (Or.inl rfl)
    · rw [← hReceiver]
      exact Legs.mem_locked hAll (Or.inr rfl)
  cases stage with
  | opening | lockingFirst => exact hCopies.trans hHolds
  | lockingSecond first =>
    cases first with
    | none => exact hCopies.trans hHolds
    | some first =>
      obtain ⟨hOne, hOwns⟩ := hHolds
      refine ⟨hCopies.trans hOne, hOwns.congr (hSame _ ?_)⟩
      rw [View.locked, hOne, List.map_singleton, hOwns.id]
      exact List.mem_singleton_self _
  | debiting sender receiver =>
    obtain ⟨hOld, hAll⟩ := hHolds
    exact ⟨hReady hOld rfl rfl hAll, hCopies.trans hAll⟩
  | crediting sender receiver =>
    obtain ⟨hOld, sender', now, hDebit, hAll⟩ := hHolds
    exact ⟨hReady hOld (Store.id_of_adjust hDebit) rfl hAll, sender', now, hDebit,
      hCopies.trans hAll⟩
  | committing sender receiver =>
    obtain ⟨hOld, sender', receiver', now, now', hDebit, hCredit, hAll⟩ := hHolds
    exact ⟨hReady hOld (Store.id_of_adjust hDebit) (Store.id_of_adjust hCredit) hAll, sender',
      receiver', now, now', hDebit, hCredit, hCopies.trans hAll⟩
  | undoing e =>
    show v'.locked.Sublist legs.rows
    rw [View.locked, hCopies]
    exact hHolds

/-- Where a stage leads to: the next stage, or the end, with no copies left. -/
def Leads (legs : Legs) (v : View) : Stage ⊕ Result Unit → Prop
  | .inl stage => stage.Holds legs v
  | .inr _ => v.copies = []

/-- An error at a stage whose copies stay leads to the undoing of the transfer. -/
theorem Holds.undo {e : LedgerError} (hHolds : stage.Holds legs v) (hSame : v'.copies = v.copies) :
    Leads legs v' (.inl (undoing e)) := by
  show v'.locked.Sublist legs.rows
  rw [View.locked, hSame]
  exact hHolds.locked_sublist

/-- The first lock: nothing, or the first party's wallet. -/
theorem leads_lockingFirst {answer : Result (lockingFirst.call legs).Answer}
    (hCopies : v.copies = []) (hKeyed : ∀ {id w}, v.wallet? id = some w → w.id = id)
    (hTold : Told v v' (lockingFirst.call legs) answer) (hQuiet : v'.wallet? = v.wallet?) :
    Leads legs v' (lockingFirst.after legs answer) := by
  rcases answer with e | _ | first
  · have hHolds : lockingFirst.Holds legs v := hCopies
    exact hHolds.undo hTold.1
  · exact Eq.trans hTold hCopies
  · obtain ⟨hShown, hOwned, hNow⟩ := hTold
    rw [View.shown?_of_nil hCopies] at hShown
    refine ⟨?_, ?_, hKeyed hShown, hOwned⟩
    · rw [hNow, View.locked, hCopies]
      rfl
    · rw [hQuiet]
      exact hShown

/-- Without one of the wallets there is no transfer. -/
theorem ofPair_of_none {first second : Option Wallet} (hNone : first = none ∨ second = none) :
    ofPair legs (pair legs first second) = undoing .invalidUser := by
  unfold pair
  split
  · rcases hNone with rfl | rfl
    · rfl
    · cases first <;> rfl
  · rcases hNone with rfl | rfl
    · cases second <;> rfl
    · rfl

/-- The wallets in the order of locking are the sender's and the receiver's. -/
theorem exists_pair {first second : Wallet} (hFirst : legs.lockOrder.1.Owns v first)
    (hSecond : legs.lockOrder.2.Owns v second) (hDistinct : first.id ≠ second.id) :
    ∃ sender receiver, pair legs (some first) (some second) = (some sender, some receiver) ∧
      [first, second] = legs.inOrder sender receiver ∧ legs.sender.Owns v sender ∧
      legs.receiver.Owns v receiver ∧ sender.id ≠ receiver.id := by
  unfold pair Legs.inOrder
  unfold Legs.lockOrder at hFirst hSecond
  split
  · next hOrder =>
    rw [if_pos hOrder] at hFirst hSecond
    exact ⟨first, second, rfl, rfl, hFirst, hSecond, hDistinct⟩
  · next hOrder =>
    rw [if_neg hOrder] at hFirst hSecond
    exact ⟨second, first, rfl, rfl, hSecond, hFirst, Ne.symm hDistinct⟩

/-- The two wallets are not one, as a wallet has one owner. -/
theorem id_ne_of_owned (hProper : legs.Proper) {first second : Wallet}
    (hFirst : first.isOwnedBy legs.lockOrder.1.user = true)
    (hSecond : second.isOwnedBy legs.lockOrder.2.user = true) : first ≠ second := by
  rintro rfl
  have hUsers : legs.lockOrder.1.user = legs.lockOrder.2.user := by
    simp only [Wallet.isOwnedBy, Bool.and_eq_true, beq_iff_eq] at hFirst hSecond
    exact hFirst.2.symm.trans hSecond.2
  apply hProper.users
  unfold Legs.lockOrder at hUsers
  split at hUsers
  · exact hUsers
  · exact hUsers.symm

/-- With the second lock both wallets are at hand: the first as a copy, the second as committed. -/
theorem owns_second {first second : Wallet} (hProper : legs.Proper)
    (hHolds : (lockingSecond (some first)).Holds legs v)
    (hKeyed : ∀ {id w}, v.wallet? id = some w → w.id = id)
    (hShown : v.shown? legs.lockOrder.2.wallet = some second)
    (hOwned : second.isOwnedBy legs.lockOrder.2.user = true) :
    legs.lockOrder.2.Owns v second ∧ first.id ≠ second.id ∧
      legs.lockOrder.2.wallet ∉ v.locked := by
  obtain ⟨hCopies, hFirst⟩ := hHolds
  have hCopy : v.copy? legs.lockOrder.2.wallet =
      if legs.lockOrder.1.wallet = legs.lockOrder.2.wallet then some first else none := by
    rw [View.copy?, hCopies, List.find?_singleton, hFirst.id]
    simp
  -- had both parties named one wallet, the copy of it would have been shown
  have hRows : legs.lockOrder.1.wallet ≠ legs.lockOrder.2.wallet := by
    intro hSame
    rw [View.shown?, hCopy, if_pos hSame] at hShown
    exact id_ne_of_owned hProper hFirst.owned hOwned (Option.some.inj hShown)
  have hSecond : v.wallet? legs.lockOrder.2.wallet = some second := by
    rw [View.shown?, hCopy, if_neg hRows] at hShown
    exact hShown
  refine ⟨⟨hSecond, hKeyed hSecond, hOwned⟩, ?_, ?_⟩
  · rw [hFirst.id, hKeyed hSecond]
    exact hRows
  · rw [View.locked, hCopies, List.map_singleton, hFirst.id, List.mem_singleton]
    exact Ne.symm hRows

/-- The second lock: with both wallets at hand the sender's balance is looked at. -/
theorem leads_lockingSecond {first : Option Wallet}
    {answer : Result ((lockingSecond first).call legs).Answer} (hProper : legs.Proper)
    (hHolds : (lockingSecond first).Holds legs v)
    (hKeyed : ∀ {id w}, v.wallet? id = some w → w.id = id)
    (hTold : Told v v' ((lockingSecond first).call legs) answer) (hQuiet : v'.wallet? = v.wallet?) :
    Leads legs v' ((lockingSecond first).after legs answer) := by
  rcases answer with e | _ | second
  · exact hHolds.undo hTold.1
  · show Leads legs v' (.inl (ofPair legs (pair legs first none)))
    rw [ofPair_of_none (Or.inr rfl)]
    exact hHolds.undo hTold
  · obtain ⟨hShown, hOwned, hNow⟩ := hTold
    show Leads legs v' (.inl (ofPair legs (pair legs first (some second))))
    cases first with
    | none =>
      -- the second wallet is locked all the same, and given up with the transaction
      rw [ofPair_of_none (Or.inl rfl)]
      have hNone : v.copies = [] := hHolds
      rw [View.shown?_of_nil hNone] at hShown
      show v'.locked.Sublist legs.rows
      rw [View.locked, hNow, View.locked, hNone]
      show [second.id].Sublist legs.rows
      rw [hKeyed hShown]
      exact List.Sublist.cons _ (List.Sublist.refl _)
    | some first =>
      obtain ⟨hSecond, hDistinct, hNew⟩ := owns_second hProper hHolds hKeyed hShown hOwned
      obtain ⟨hCopies, hFirst⟩ := hHolds
      rw [if_neg hNew, hCopies] at hNow
      obtain ⟨sender, receiver, hPair, hOrder, hDebtor, hCreditor, hIds⟩ :=
        exists_pair (hFirst.congr (congrFun hQuiet _)) (hSecond.congr (congrFun hQuiet _)) hDistinct
      have hAll : v'.copies = legs.inOrder sender receiver := hNow.trans hOrder
      rw [hPair]
      show (ofPair legs (some sender, some receiver)).Holds legs v'
      unfold ofPair
      simp only
      split
      · -- not covered: both copies are there to be dropped
        show v'.locked.Sublist legs.rows
        have hRows := Legs.map_id_inOrder hDebtor.id hCreditor.id
        simp only [View.locked, hAll, hRows, List.Sublist.refl]
      · next hCovered => exact ⟨⟨hDebtor, hCreditor, hIds, by simpa using hCovered⟩, hAll⟩

/-- The debit: the sender's copy is adjusted. -/
theorem leads_debiting {sender receiver : Wallet}
    {answer : Result ((debiting sender receiver).call legs).Answer}
    (hHolds : (debiting sender receiver).Holds legs v)
    (hTold : Told v v' ((debiting sender receiver).call legs) answer)
    (hQuiet : v'.wallet? = v.wallet?) :
    Leads legs v' ((debiting sender receiver).after legs answer) := by
  have hAll := hHolds
  obtain ⟨hReady, hCopies⟩ := hHolds
  have hMem : sender.id ∈ v.locked := Legs.mem_locked hCopies (Or.inl rfl)
  cases answer with
  | error e => exact hAll.undo (Told.copies_of_mem hTold hMem)
  | ok debited =>
    obtain ⟨w, w', now, hShown, hDebit, hNow⟩ := hTold
    rw [Legs.shown?_sender hCopies hReady.distinct] at hShown
    obtain rfl : sender = w := Option.some.inj hShown
    rw [if_pos hMem, hCopies, Legs.map_sender hReady.distinct (Store.id_of_adjust hDebit)] at hNow
    exact ⟨hReady.congr (congrFun hQuiet _) (congrFun hQuiet _), w', now, hDebit, hNow⟩

/-- The credit: the receiver's copy is adjusted. -/
theorem leads_crediting {sender receiver : Wallet}
    {answer : Result ((crediting sender receiver).call legs).Answer}
    (hHolds : (crediting sender receiver).Holds legs v)
    (hTold : Told v v' ((crediting sender receiver).call legs) answer)
    (hQuiet : v'.wallet? = v.wallet?) :
    Leads legs v' ((crediting sender receiver).after legs answer) := by
  have hAll := hHolds
  obtain ⟨hReady, sender', now, hDebit, hCopies⟩ := hHolds
  have hDistinct : sender'.id ≠ receiver.id := by
    rw [Store.id_of_adjust hDebit]
    exact hReady.distinct
  have hMem : receiver.id ∈ v.locked := Legs.mem_locked hCopies (Or.inr rfl)
  cases answer with
  | error e => exact hAll.undo (Told.copies_of_mem hTold hMem)
  | ok credited =>
    obtain ⟨w, w', now', hShown, hCredit, hNow⟩ := hTold
    rw [Legs.shown?_receiver hCopies hDistinct] at hShown
    obtain rfl : receiver = w := Option.some.inj hShown
    rw [if_pos hMem, hCopies, Legs.map_receiver hDistinct (Store.id_of_adjust hCredit)] at hNow
    exact ⟨hReady.congr (congrFun hQuiet _) (congrFun hQuiet _), sender', w', now, now', hDebit,
      hCredit, hNow⟩

/-- Every answer leads from a stage at which its copies are as they should be to another one. -/
theorem Holds.after {answer : Result (stage.call legs).Answer} (hProper : legs.Proper)
    (hHolds : stage.Holds legs v) (hKeyed : ∀ {id w}, v.wallet? id = some w → w.id = id)
    (hTold : Told v v' (stage.call legs) answer)
    (hQuiet : stage.call legs ≠ .commit → v'.wallet? = v.wallet?) :
    Leads legs v' (stage.after legs answer) := by
  cases stage with
  | opening =>
    cases answer with
    | error e => exact hTold.1.trans hHolds
    | ok opened => exact hTold
  | lockingFirst => exact leads_lockingFirst hHolds hKeyed hTold (hQuiet (by rintro ⟨⟩))
  | lockingSecond first =>
    exact leads_lockingSecond hProper hHolds hKeyed hTold (hQuiet (by rintro ⟨⟩))
  | debiting sender receiver => exact leads_debiting hHolds hTold (hQuiet (by rintro ⟨⟩))
  | crediting sender receiver => exact leads_crediting hHolds hTold (hQuiet (by rintro ⟨⟩))
  | committing sender receiver =>
    cases answer with
    | error e => exact hTold.1
    | ok committed => exact hTold.1
  | undoing e =>
    cases answer with
    | error e => exact hTold
    | ok undone => exact hTold

end Stage

end Purse
