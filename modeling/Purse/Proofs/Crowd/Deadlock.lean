import Mathlib.Logic.Relation
import Purse.Proofs.Crowd.Jobs
import Purse.Proofs.Crowd.Play
import Purse.Proofs.Id.Wallet

/-!
# Deadlock freedom

The rows at which a command stands, the ones it has locked and the one it waits for, ascend by the
canonical texts of their ids. An agent that waits is behind the holder of the row and behind the
waiting agents that came before it. Along these waits either the text of the row ascends, or the row
is the same one and the place in its line goes down, so they never close a cycle.

## Results

* `ascending`: the rows of a command ascend, in the order in which it comes for them.
* `acyclic`: commands never wait for each other in a cycle.
* `exists_turn_or_outsider`: from holder to holder one gets to a command that can go on, or to an
  agent that is no command.
* `Run.deadlock_free`: the three together, in every state of a run; and where commands hold all
  locks, some command can go on.
-/

namespace Purse

/-- Locks are taken by ascending texts: the first row's text is at most the second one's. -/
theorem Legs.pairwise_rows (legs : Legs) : legs.rows.Pairwise fun x y => x.text ≤ y.text := by
  have hOrder : legs.lockOrder.1.wallet.text ≤ legs.lockOrder.2.wallet.text := by
    unfold lockOrder
    split
    · next hFirst =>
      have hLt : legs.sender.wallet.text < legs.receiver.wallet.text := by
        simpa [senderLocksFirst] using hFirst
      exact String.not_lt.mp (String.lt_asymm hLt)
    · next hFirst =>
      have hNot : ¬ legs.sender.wallet.text < legs.receiver.wallet.text := by
        simpa [senderLocksFirst] using hFirst
      exact String.not_lt.mp hNot
  simpa [rows] using hOrder

namespace Crowd

variable {env : Surroundings} {s s' : Crowd} {a b c : Agent} {trace : List Event}
  {jobs : Agent → Job} {l : Ledger} {id : WalletId}

/-- The rows at which an agent stands: those that its transaction has locked, in the order of
locking, and the one it waits for. -/
def rowsOf (s : Crowd) (a : Agent) : List WalletId :=
  s.ledger.store.locked a ++ (s.pending a).toList

/-- An agent waits for another one, which is before it in the line of the row that it waits for: the
holder of the row, or an agent that came for the row earlier. -/
def WaitsFor (s : Crowd) (a b : Agent) : Prop :=
  ∃ id, s.pending a = some id ∧ [b, a].Sublist (s.ledger.store.line id)

/-- One command waits for another. -/
def Waits (jobs : Agent → Job) (s : Crowd) (a b : Agent) : Prop :=
  (jobs a).isCommand = true ∧ (jobs b).isCommand = true ∧ s.WaitsFor a b

/-- A command waits for a row that somebody else holds. -/
def BlockedBy (jobs : Agent → Job) (s : Crowd) (a b : Agent) : Prop :=
  (jobs a).isCommand = true ∧ b ≠ a ∧
    ∃ id, s.pending a = some id ∧ s.ledger.store.holder? id = some b

/-! ## The rows of a command -/

theorem mem_line_iff (hSound : s.Sound) : a ∈ s.ledger.store.line id ↔ id ∈ s.rowsOf a := by
  rw [hSound.coherent.stands, rowsOf, List.mem_append, Option.mem_toList]

theorem nodup_rowsOf (hSound : s.Sound) (a : Agent) : (s.rowsOf a).Nodup := by
  unfold rowsOf
  cases hPending : s.pending a with
  | none =>
    rw [Option.toList_none, List.append_nil]
    exact hSound.coherent.nodup
  | some id =>
    refine List.nodup_append.mpr ⟨hSound.coherent.nodup, List.nodup_singleton id, ?_⟩
    rintro x hx y hy rfl
    obtain rfl := List.mem_singleton.mp hy
    exact hSound.coherent.apart hPending hx

/-- The call that a waiting agent is in is one for the row that it waits for. -/
theorem row?_of_pending {c : Call} {next : Result c.Answer → Program Reply} (hSound : s.Sound)
    (hPending : s.pending a = some id) (hRest : (s.threads a).rest? = some (.call c next)) :
    c.row? = some id := by
  obtain ⟨isOpen, hOrderly, -⟩ := hSound.orderly a
  unfold pending at hPending
  cases hThread : s.threads a with
  | waiting c' next' row =>
    rw [hThread] at hPending hRest hOrderly
    cases hRest
    cases hPending
    exact hOrderly.2
  | calling | ended => simp [hThread, Thread.row?] at hPending

/-- The rows of a transfer are among its two wallets, in the order of locking. -/
theorem rowsOf_sublist {legs : Legs} {stage : Stage} (hSound : s.Sound)
    (hRest : (s.threads a).rest? = some (stage.program legs))
    (hHolds : stage.Holds legs (s.ledger.store.view a)) : (s.rowsOf a).Sublist legs.rows := by
  have hLocked : (s.ledger.store.locked a).Sublist legs.rows := hHolds.locked_sublist
  unfold rowsOf
  cases hPending : s.pending a with
  | none =>
    rw [Option.toList_none, List.append_nil]
    exact hLocked
  | some id =>
    rw [stage.program_eq] at hRest
    exact hHolds.append_sublist (row?_of_pending hSound hPending hRest)
      (hSound.coherent.apart hPending)

theorem pending_of_isEnded (hEnded : (s.threads a).isEnded = true) : s.pending a = none := by
  unfold pending
  cases hThread : s.threads a with
  | ended ending => rfl
  | calling c next => rfl
  | waiting c next row => simp [hThread, Thread.isEnded] at hEnded

theorem pairwise_toList (o : Option WalletId) (R : WalletId → WalletId → Prop) :
    o.toList.Pairwise R := by
  cases o with
  | none => exact List.Pairwise.nil
  | some id => exact List.pairwise_singleton R id

/-- The rows of a command ascend, in the order in which it comes for them. -/
theorem ascending (hSound : s.Sound) (hAlong : s.Along jobs)
    (hCommand : (jobs a).isCommand = true) : (s.rowsOf a).Pairwise fun x y => x.text < y.text := by
  have hMine := hAlong a
  -- without copies there is at most the row that it waits for
  have hOne : s.ledger.store.copies a = [] → (s.rowsOf a).Pairwise fun x y => x.text < y.text := by
    intro hNone
    rw [rowsOf, Store.locked, hNone]
    exact pairwise_toList _ _
  cases hJob : jobs a with
  | topup request =>
    rw [hJob] at hMine
    exact hOne hMine.1
  | transfer request =>
    rw [hJob] at hMine
    obtain ⟨-, hNone⟩ | ⟨r, legs, stage, -, -, hRest, hHolds⟩ := hMine
    · exact hOne hNone
    · have hWeak : (s.rowsOf a).Pairwise fun x y => x.text ≤ y.text :=
        legs.pairwise_rows.sublist (rowsOf_sublist hSound hRest hHolds)
      refine (hWeak.and (nodup_rowsOf hSound a)).imp fun {x y} hBoth => ?_
      -- two ids with one text would be one row
      refine String.not_le.mp fun hGe => hBoth.2 (WalletId.text_injective ?_)
      exact String.le_antisymm hBoth.1 hGe
  | other program hOrderly => simp [hJob, Job.isCommand] at hCommand

/-! ## No cycle -/

/-- To stand before somebody in a line without repetitions is transitive. -/
theorem sublist_trans_of_nodup {line : List Agent} (hNodup : line.Nodup)
    (hAB : [a, b].Sublist line) (hBC : [b, c].Sublist line) : [a, c].Sublist line := by
  induction line with
  | nil => simp at hAB
  | cons x line ih =>
    obtain ⟨hNot, hRest⟩ := List.nodup_cons.mp hNodup
    cases hBC with
    | cons _ hBC =>
      cases hAB with
      | cons _ hAB => exact (ih hRest hAB hBC).cons _
      | cons_cons _ hB =>
        have hC : [c].Sublist line := (List.sublist_cons_self b [c]).trans hBC
        exact hC.cons_cons _
    | cons_cons _ hC =>
      -- the one in the middle would be in front and behind the front
      have hMem : b ∈ line := by
        cases hAB with
        | cons _ hAB => exact hAB.subset (by simp)
        | cons_cons _ hB => exact hB.subset (by simp)
      exact absurd hMem hNot

/-- A command that waits stands at no row with a greater text than the one it waits for. -/
theorem text_lt_or_eq (hSound : s.Sound) (hAlong : s.Along jobs)
    (hCommand : (jobs b).isCommand = true) {x y : WalletId} (hMem : b ∈ s.ledger.store.line x)
    (hPending : s.pending b = some y) : x.text < y.text ∨ x = y := by
  have hRows : s.rowsOf b = s.ledger.store.locked b ++ [y] := by
    rw [rowsOf, hPending]
    rfl
  have hAscends := ascending hSound hAlong hCommand
  rw [mem_line_iff hSound, hRows] at hMem
  rw [hRows] at hAscends
  rcases List.mem_append.mp hMem with hLocked | hLast
  · exact Or.inl ((List.pairwise_append.mp hAscends).2.2 x hLocked y (List.mem_singleton_self y))
  · exact Or.inr (List.mem_singleton.mp hLast)

/-- Along the waits of commands the text of the row ascends, or the row is the same and one gets
ahead in its line. -/
theorem ascends_of_transGen (hSound : s.Sound) (hAlong : s.Along jobs)
    (hWaits : Relation.TransGen (s.Waits jobs) a b) {x y : WalletId} (hA : s.pending a = some x)
    (hB : s.pending b = some y) :
    x.text < y.text ∨ x = y ∧ [b, a].Sublist (s.ledger.store.line x) := by
  have hOne : ∀ {a b x y}, s.Waits jobs a b → s.pending a = some x → s.pending b = some y →
      x.text < y.text ∨ x = y ∧ [b, a].Sublist (s.ledger.store.line x) := by
    rintro a b x y ⟨-, hCommand, z, hZ, hAhead⟩ hA hB
    obtain rfl : x = z := Option.some.inj (hA.symm.trans hZ)
    rcases text_lt_or_eq hSound hAlong hCommand (hAhead.subset (by simp)) hB with hLt | hSame
    · exact Or.inl hLt
    · exact Or.inr ⟨hSame, hAhead⟩
  induction hWaits generalizing y with
  | single hWait => exact hOne hWait hA hB
  | tail hWaits hWait ih =>
    -- an ascent on either side is one of both; otherwise all happens in one line
    obtain ⟨z, hMid, -⟩ := hWait.2.2
    rcases ih hMid with hLt | ⟨rfl, hAhead⟩
    · rcases hOne hWait hMid hB with hLt' | ⟨rfl, -⟩
      · exact Or.inl (String.lt_trans hLt hLt')
      · exact Or.inl hLt
    · rcases hOne hWait hMid hB with hLt' | ⟨rfl, hAhead'⟩
      · exact Or.inl hLt'
      · exact Or.inr ⟨rfl, sublist_trans_of_nodup (hSound.coherent.nodup_line _) hAhead' hAhead⟩

/-- Commands never wait for each other in a cycle. -/
theorem acyclic (hSound : s.Sound) (hAlong : s.Along jobs) (a : Agent) :
    ¬ Relation.TransGen (s.Waits jobs) a a := by
  intro hCycle
  obtain ⟨b, ⟨-, -, id, hPending, -⟩, -⟩ := Relation.TransGen.head'_iff.mp hCycle
  rcases ascends_of_transGen hSound hAlong hCycle hPending hPending with hLt | ⟨-, hTwice⟩
  · exact String.lt_irrefl _ hLt
  · -- nobody is ahead of itself in a line
    have hNodup := (hSound.coherent.nodup_line id).sublist hTwice
    simp at hNodup

/-! ## Somebody can go on -/

/-- An agent that is not done can go on unless it waits for a row that it has not been given. -/
theorem isSome_turn?_iff (hBusy : (s.threads a).isEnded = false) :
    (s.turn? env a).isSome = true ↔
      ∀ id, s.pending a = some id → s.ledger.store.holder? id = some a := by
  unfold turn? pending
  cases hThread : s.threads a with
  | calling c next => simp [Thread.row?]
  | ended ending => simp [hThread, Thread.isEnded] at hBusy
  | waiting c next row =>
    simp only [Thread.row?, Option.some.injEq, forall_eq']
    rw [← Store.holds_iff]
    split
    · next hHolds => simp [hHolds]
    · next hHolds => simp [hHolds]

/-- The agent in front of a line is not done. -/
theorem busy_of_holder? (hSound : s.Sound) (hHolder : s.ledger.store.holder? id = some b) :
    (s.threads b).isEnded = false := by
  obtain ⟨rest, hLine, -⟩ := hSound.coherent.line_of_holder? hHolder
  cases hThread : s.threads b with
  | calling | waiting => rfl
  | ended ending =>
    refine absurd ?_ ((hSound.out hThread).2 id)
    rw [hLine]
    exact List.mem_cons_self

/-- There is somebody in front of the line in which an agent waits. -/
theorem exists_holder? (hSound : s.Sound) (hPending : s.pending a = some id) :
    ∃ b, s.ledger.store.holder? id = some b := by
  have hMem : a ∈ s.ledger.store.line id := hSound.coherent.stands.mpr (Or.inr hPending)
  rw [hSound.coherent.holder?_eq_head?]
  cases hLine : s.ledger.store.line id with
  | nil => simp [hLine] at hMem
  | cons b rest => exact ⟨b, rfl⟩

/-- From holder to holder one gets to a command that can go on, or to one that is no command. -/
theorem exists_turn_or_outsider (env : Surroundings) (hSound : s.Sound) (hAlong : s.Along jobs)
    (hCommand : (jobs a).isCommand = true) (hBusy : (s.threads a).isEnded = false) :
    ∃ b, Relation.ReflTransGen (s.BlockedBy jobs) a b ∧
      ((jobs b).isCommand = true ∧ (s.turn? env b).isSome = true ∨ (jobs b).isCommand = false) := by
  cases hPending : s.pending a with
  | none =>
    refine ⟨a, .refl, Or.inl ⟨hCommand, (isSome_turn?_iff hBusy).mpr ?_⟩⟩
    simp [hPending]
  | some id =>
    -- up the texts of the rows that are waited for, which cannot go on for ever
    induction id using WalletId.wellFounded_above.induction generalizing a with
    | _ id ih =>
      obtain ⟨b, hHolder⟩ := exists_holder? hSound hPending
      have hBusyB := busy_of_holder? hSound hHolder
      by_cases hSelf : b = a
      · subst hSelf
        refine ⟨b, .refl, Or.inl ⟨hCommand, (isSome_turn?_iff hBusy).mpr ?_⟩⟩
        rintro x hx
        obtain rfl : id = x := Option.some.inj (hPending.symm.trans hx)
        exact hHolder
      · have hBlocked : s.BlockedBy jobs a b := ⟨hCommand, hSelf, id, hPending, hHolder⟩
        cases hOther : (jobs b).isCommand with
        | false => exact ⟨b, .single hBlocked, Or.inr hOther⟩
        | true =>
          by_cases hTurn : (s.turn? env b).isSome = true
          · exact ⟨b, .single hBlocked, Or.inl ⟨hOther, hTurn⟩⟩
          · -- the holder waits in its turn, and for a row further up
            rw [isSome_turn?_iff hBusyB] at hTurn
            simp only [not_forall] at hTurn
            obtain ⟨y, hY, hNot⟩ := hTurn
            obtain ⟨rest, hLine, -⟩ := hSound.coherent.line_of_holder? hHolder
            have hMem : b ∈ s.ledger.store.line id := by
              rw [hLine]
              exact List.mem_cons_self
            rcases text_lt_or_eq hSound hAlong hOther hMem hY with hLt | rfl
            · obtain ⟨d, hChain, hEnd⟩ := ih y hLt hOther hBusyB hY
              exact ⟨d, .head hBlocked hChain, hEnd⟩
            · exact absurd hHolder hNot

/-- If commands hold all locks, a command that is not done means one that can go on. -/
theorem exists_turn (env : Surroundings) (hSound : s.Sound) (hAlong : s.Along jobs)
    (hHolders : ∀ id b, s.ledger.store.holder? id = some b → (jobs b).isCommand = true)
    (hCommand : (jobs a).isCommand = true) (hBusy : (s.threads a).isEnded = false) :
    ∃ b, (jobs b).isCommand = true ∧ (s.turn? env b).isSome = true := by
  obtain ⟨b, hChain, ⟨hOther, hTurn⟩ | hOutside⟩ :=
    exists_turn_or_outsider env hSound hAlong hCommand hBusy
  · exact ⟨b, hOther, hTurn⟩
  · rcases Relation.ReflTransGen.cases_tail hChain with rfl | ⟨c, -, -, -, id, -, hHolder⟩
    · simp [hCommand] at hOutside
    · simp [hHolders id b hHolder] at hOutside

/-- In every state that agents can reach from a resting store, in any order of steps and whoever is
dropped meanwhile: commands never wait for each other in a cycle; the rows of a command ascend by
their canonical texts, in the order in which it comes for them; if no lock is held by anybody but
commands, and a command is not done, some command can go on; and from holder to holder every waiting
command leads to a command that can go on or to a holder that is no command. -/
theorem Run.deadlock_free (hResting : l.store.Resting) (hRun : Run env (start jobs l) trace s) :
    (∀ a, ¬ Relation.TransGen (s.Waits jobs) a a) ∧
    (∀ a, (jobs a).isCommand = true → (s.rowsOf a).Pairwise fun x y => x.text < y.text) ∧
    ((∀ id b, s.ledger.store.holder? id = some b → (jobs b).isCommand = true) →
      ∀ a, (jobs a).isCommand = true → (s.threads a).isEnded = false →
        ∃ b, (jobs b).isCommand = true ∧ (s.turn? env b).isSome = true) ∧
    (∀ a, (jobs a).isCommand = true → s.pending a ≠ none →
      ∃ b, Relation.ReflTransGen (s.BlockedBy jobs) a b ∧
        ((jobs b).isCommand = true ∧ (s.turn? env b).isSome = true ∨
          (jobs b).isCommand = false)) := by
  have hSound := hRun.sound (sound_start hResting jobs)
  have hAlong := hRun.along hResting
  refine ⟨acyclic hSound hAlong, fun a => ascending hSound hAlong, fun hHolders a => ?_, ?_⟩
  · exact exists_turn env hSound hAlong hHolders
  · intro a hCommand hPending
    refine exists_turn_or_outsider env hSound hAlong hCommand ?_
    by_contra hEnded
    exact hPending (pending_of_isEnded (by simpa using hEnded))

/-- Two transfers in opposite directions, each of which has come for its first row: the second one
waits for the first, and some command can go on. -/
theorem opposite_transfers_go_on :
    let s := (play stillness [0, 0, 1, 1]
      (duo (coins 10) (coins 10) [between 1 2 (coins 5), between 2 1 (coins 3)])).2
    s.pending 1 = some (.ofNat 1) ∧ ∃ b, (s.turn? stillness b).isSome = true := by
  intro s
  refine ⟨by decide +kernel, ?_⟩
  have hCommands : ∀ a, (jobsOf [between 1 2 (coins 5), between 2 1 (coins 3)] a).isCommand = true
    | 0 | 1 | _ + 2 => rfl
  have hRun : Run stillness _ _ s := run_play stillness _ _
  obtain ⟨-, -, hTurn, -⟩ := Run.deadlock_free (resting_duoLedger _ _) hRun
  obtain ⟨b, -, hSome⟩ := hTurn (fun _ b _ => hCommands b) 1 (hCommands 1) (by decide +kernel)
  exact ⟨b, hSome⟩

end Crowd

end Purse
