import Purse.Proofs.Replay.Traces
import Purse.Proofs.Session.Creations
import Purse.Proofs.Text.ByteOrder

/-!
# What labels stand for

A row that makes a wallet gives it a label, and may take the label from another wallet by it. So at each
row of a replay a label stands for the wallet of the last row that gave it, even where the label reads
as an id; any other text stands for itself. The report goes by the same labels: it has one line for each,
in the order of their bytes, with the owner and the balance of the wallet that the label stands for in
the end.

## Definitions

* `State.creations`: the rows that make wallets, with their wallets.
* `latest?`, `idFor`: the wallet that a label stands for, and the id that a wallet field comes to.
* `State.Bound`: labels and wallets go back to some creations.

## Results

* `State.bound_next`, `State.bound_runFrom`: one row and all rows.
* `State.creations_carriedOut`: the rows that make wallets are those that say so and are not skipped.
* `State.Bound.report_lines`: the report.
* `report_describes_labels`: a replay from an empty ledger on.
-/

namespace Purse

namespace Replay

-- ---------------------------------------------------------------------------
-- Creations
-- ---------------------------------------------------------------------------

/-- The wallet that a label stands for after some rows have made wallets: that of the last one that gave
the label. -/
def latest? (made : List (Row × Wallet)) (label : String) : Option Wallet :=
  (made.filter (·.1.wallet = label)).getLast?.map Prod.snd

/-- The id that a wallet field comes to: that of the wallet it stands for, or the text itself. -/
def idFor (made : List (Row × Wallet)) (field : String) : String :=
  ((latest? made field).map (·.id.text)).getD field

theorem latest?_concat (made : List (Row × Wallet)) (row : Row) (w : Wallet) (label : String) :
    latest? (made ++ [(row, w)]) label = if row.wallet = label then some w else latest? made label := by
  unfold latest?
  rw [List.filter_append]
  by_cases hSame : row.wallet = label
  · have hLast : [(row, w)].filter (·.1.wallet = label) = [(row, w)] := by simp [hSame]
    rw [hLast, List.getLast?_concat, if_pos hSame]
    rfl
  · have hNone : [(row, w)].filter (·.1.wallet = label) = [] := by simp [hSame]
    rw [hNone, List.append_nil, if_neg hSame]

theorem isSome_latest? {made : List (Row × Wallet)} {label : String} :
    (latest? made label).isSome = true ↔ label ∈ made.map (·.1.wallet) := by
  unfold latest?
  rw [Option.isSome_map, List.getLast?_isSome, ne_eq, List.filter_eq_nil_iff]
  simp

namespace State

variable {env : Surroundings} {timeout : Nat} {s s' : State} {line : Nat} {row : Row}
  {made : List (Row × Wallet)} {c : Command}

/-- A row that makes a wallet, with the wallet: the row asks for one, and gets it. -/
def creation? (env : Surroundings) (timeout : Nat) (s : State) : Option Row → Option (Row × Wallet)
  | some row =>
    if row.makes && s.fault.isNone then
      (s.schedule.execute env (Command.createWallet row.user).program
        (some (s.schedule.ledger.now + timeout))).2.1.made?.map (row, ·)
    else none
  | none => none

/-- The rows that make wallets, with their wallets, among rows that are gone through from a line on. -/
def creations (env : Surroundings) (timeout : Nat) :
    State → Nat → List (Option Row) → List (Row × Wallet)
  | _, _, [] => []
  | s, line, row? :: rest =>
    (s.creation? env timeout row?).toList ++
      creations env timeout (s.next env timeout line row?) (line + 1) rest

theorem creations_append (env : Surroundings) (timeout : Nat) (s : State) (line : Nat)
    (rows others : List (Option Row)) :
    s.creations env timeout line (rows ++ others) =
      s.creations env timeout line rows ++
        (s.runFrom env timeout line rows).creations env timeout (line + rows.length) others := by
  induction rows generalizing s line with
  | nil => rfl
  | cons row? rest ih =>
    rw [List.cons_append, creations, ih, creations, runFrom, List.append_assoc, List.length_cons,
      Nat.add_right_comm, Nat.add_assoc line]

/-- A row that asks for a wallet asks for one of its user. -/
theorem command_of_makes (hMakes : row.makes = true) :
    s.command row = .ok (.createWallet row.user) := by
  have hCreate : row.command.map Char.toLower = "create" := eq_of_beq hMakes
  unfold command
  rw [hCreate]
  rfl

theorem creation?_some (env : Surroundings) (timeout : Nat) (s : State) (row : Row) :
    s.creation? env timeout (some row) =
      if row.makes && s.fault.isNone then
        (s.schedule.execute env (Command.createWallet row.user).program
          (some (s.schedule.ledger.now + timeout))).2.1.made?.map (row, ·)
      else none :=
  rfl

theorem creation?_of_fault (hFault : s.fault ≠ none) (row? : Option Row) :
    s.creation? env timeout row? = none := by
  cases row? with
  | none => rfl
  | some row =>
    rw [creation?_some, Option.isNone_eq_false_iff.mpr (Option.isSome_iff_ne_none.mpr hFault),
      Bool.and_false]
    rfl

theorem creation?_of_error {e : LedgerError} (hCommand : s.command row = .error e) :
    s.creation? env timeout (some row) = none := by
  rw [creation?_some]
  cases hMakes : row.makes with
  | false => rfl
  | true => cases hCommand.symm.trans (command_of_makes hMakes)

/-- What the command of a row makes is what the row makes. -/
theorem creation?_of_execute {schedule : Schedule} {ending : Ending} {others : List (Agent × Ending)}
    (hGoing : s.fault = none) (hCommand : s.command row = .ok c)
    (hExecute : s.schedule.execute env c.program (some (s.schedule.ledger.now + timeout)) =
      (schedule, ending, others))
    (hMaker : ∀ w ∈ ending.made?, ∃ userId, c = .createWallet userId) :
    s.creation? env timeout (some row) = ending.made?.map (row, ·) := by
  rw [creation?_some, hGoing]
  cases hMakes : row.makes with
  | true =>
    obtain rfl := Except.ok.inj (hCommand.symm.trans (command_of_makes hMakes))
    rw [hExecute]
    rfl
  | false =>
    cases hMade : ending.made? with
    | none => rfl
    | some w =>
      obtain ⟨userId, rfl⟩ := hMaker w hMade
      cases hMakes.symm.trans (makes_of_command hCommand)

-- ---------------------------------------------------------------------------
-- One row
-- ---------------------------------------------------------------------------

/-- The labels of a replay stand for the wallets of the last of some creations that gave them, and all
its wallets come from those creations. -/
structure Bound (made : List (Row × Wallet)) (s : State) : Prop where
  labels : ∀ label,
    s.labels.get? label = (latest? made label).map fun w => (w.id.text, w.userId.text)
  descends : s.schedule.Descends (made.map Prod.snd) s.schedule.ledger.mint
  rows : ∀ e ∈ made, e.1.makes = true ∧ UserId.parseTrimmed? e.1.user = some e.2.userId

theorem bound_start (lifetime : Nat) : (State.start (Schedule.empty lifetime)).Bound [] where
  labels _ := rfl
  descends := ⟨⟨.empty, rfl⟩, by rintro _ ⟨⟩⟩
  rows := by rintro _ ⟨⟩

theorem Bound.keep (hBound : s.Bound made) (hLabels : s'.labels = s.labels)
    (hDescends : s'.schedule.Descends (made.map Prod.snd) s'.schedule.ledger.mint) : s'.Bound made where
  labels := by
    rw [hLabels]
    exact hBound.labels
  descends := hDescends
  rows := hBound.rows

theorem Bound.bind {w : Wallet} (hBound : s.Bound made) (hMakes : row.makes = true)
    (hOwner : UserId.parseTrimmed? row.user = some w.userId)
    (hLabels : s'.labels = s.labels.put row.wallet (w.id.text, w.userId.text))
    (hDescends : s'.schedule.Descends (made.map Prod.snd ++ [w]) s'.schedule.ledger.mint) :
    s'.Bound (made ++ [(row, w)]) where
  labels label := by
    rw [hLabels, Table.get?_put, latest?_concat]
    split
    · rfl
    · exact hBound.labels label
  descends := by
    rw [List.map_append]
    exact hDescends
  rows := List.forall_mem_append.mpr ⟨hBound.rows, List.forall_mem_singleton.mpr ⟨hMakes, hOwner⟩⟩

theorem schedule_ended (s : State) (line : Nat) (row : Row) (schedule : Schedule) (ending : Ending) :
    (s.ended line row schedule ending).schedule = schedule := by
  rcases ending with (e | reply) | f <;> rfl

/-- Only a wallet that a row has made gets its label. -/
theorem labels_ended (s : State) (line : Nat) (row : Row) (schedule : Schedule) (ending : Ending) :
    (s.ended line row schedule ending).labels =
      match ending.made? with
      | some w => s.labels.put row.wallet (w.id.text, w.userId.text)
      | none => s.labels := by
  rcases ending with (e | reply) | f
  · rfl
  · cases reply <;> rfl
  · rfl

theorem bound_apply (hBound : s.Bound made) (hGoing : s.fault = none)
    (hCommand : s.command row = .ok c) (env : Surroundings) (timeout line : Nat) :
    (s.apply env timeout line row).Bound
      (made ++ (s.creation? env timeout (some row)).toList) := by
  have hDone := Schedule.descends_execute hBound.descends env c
    (some (s.schedule.ledger.now + timeout))
  obtain ⟨schedule, ending, others, hExecute⟩ : ∃ schedule ending others,
      s.schedule.execute env c.program (some (s.schedule.ledger.now + timeout)) =
        (schedule, ending, others) := ⟨_, _, _, rfl⟩
  rw [hExecute] at hDone
  obtain ⟨hThere, hOwner⟩ := hDone
  rw [apply_of_execute hCommand hExecute, creation?_of_execute hGoing hCommand hExecute
    fun w hMade => (hOwner w hMade).imp fun _ => And.left]
  have hLabels := s.labels_ended line row schedule ending
  rw [← s.schedule_ended line row schedule ending] at hThere
  cases hMade : ending.made? with
  | none =>
    rw [hMade] at hLabels hThere
    rw [Option.toList_none, List.append_nil] at hThere
    rw [Option.map_none, Option.toList_none, List.append_nil]
    exact hBound.keep hLabels hThere
  | some w =>
    rw [hMade] at hLabels hThere
    obtain ⟨userId, rfl, hUser⟩ := hOwner w hMade
    have hMakes := makes_of_command hCommand
    obtain rfl := Command.createWallet.inj (Except.ok.inj
      (hCommand.symm.trans (command_of_makes hMakes)))
    exact hBound.bind hMakes hUser hLabels hThere

/-- One row: a wallet that it makes gets the label that the row gives. -/
theorem bound_next (hBound : s.Bound made) (env : Surroundings) (timeout line : Nat)
    (row? : Option Row) :
    (s.next env timeout line row?).Bound (made ++ (s.creation? env timeout row?).toList) := by
  have hSame : ∀ t : State, t.labels = s.labels → t.schedule = s.schedule →
      t.Bound (made ++ (none : Option (Row × Wallet)).toList) := by
    intro t hLabels hSchedule
    rw [Option.toList_none, List.append_nil]
    refine hBound.keep hLabels ?_
    rw [hSchedule]
    exact hBound.descends
  by_cases hFault : s.fault = none
  · cases row? with
    | none =>
      rw [next_malformed hFault]
      exact hSame _ rfl rfl
    | some row =>
      rw [next_row hFault]
      cases hCommand : s.command row with
      | error e =>
        unfold apply
        rw [hCommand, creation?_of_error hCommand]
        exact hSame _ rfl rfl
      | ok c => exact bound_apply hBound hFault hCommand env timeout line
  · rw [next_of_fault hFault, creation?_of_fault hFault]
    exact hSame _ rfl rfl

-- ---------------------------------------------------------------------------
-- All rows
-- ---------------------------------------------------------------------------

theorem bound_runFrom (hBound : s.Bound made) (env : Surroundings) (timeout line : Nat)
    (rows : List (Option Row)) :
    (s.runFrom env timeout line rows).Bound (made ++ s.creations env timeout line rows) := by
  induction rows generalizing s made line with
  | nil => exact (List.append_nil made).symm ▸ hBound
  | cons row? rest ih =>
    have hAll := ih (bound_next hBound env timeout line row?) (line + 1)
    rw [List.append_assoc] at hAll
    exact hAll

/-- A row that asks for a wallet leaves a note if it gets none. -/
theorem skipped_of_makes (hGoing : s.fault = none) (hMakes : row.makes = true) (env : Surroundings)
    (timeout line : Nat) :
    (∃ w, s.creation? env timeout (some row) = some (row, w) ∧
        (s.next env timeout line (some row)).skipped = s.skipped) ∨
      s.creation? env timeout (some row) = none ∧
        ∃ why ∈ (s.next env timeout line (some row)).skipped, why.line = line := by
  have hCommand := command_of_makes (s := s) hMakes
  obtain ⟨result, l', hCreates, hExecute⟩ := s.schedule.execute_creates env
    (some (.forUser row.user)) (some (s.schedule.ledger.now + timeout))
  rw [next_row hGoing, apply_of_execute hCommand hExecute,
    creation?_of_execute hGoing hCommand hExecute fun w _ => ⟨row.user, rfl⟩]
  have hNoted : ∀ (t : State) (e : LedgerError), ∃ why ∈
      (t.skip (.rejected line row.command e)).skipped, why.line = line := fun t e =>
    ⟨_, List.mem_append_right t.skipped (List.mem_singleton_self _), rfl⟩
  cases hCreates with
  | refused | lost => exact Or.inr ⟨rfl, hNoted _ _⟩
  | made => exact Or.inl ⟨_, rfl, rfl⟩

/-- The rows that make wallets are those that say so and are not skipped, if all rows are gone through. -/
theorem creations_carriedOut {rows : List (Option Row)} (hPast : ∀ why ∈ s.skipped, why.line < line)
    (hDone : (s.runFrom env timeout line rows).fault = none) :
    (s.creations env timeout line rows).map Prod.fst =
      ((s.runFrom env timeout line rows).carriedOut line rows).filter Row.makes := by
  induction rows generalizing s line with
  | nil => rfl
  | cons row? rest ih =>
    have hGoing : s.fault = none := by
      by_contra hFault
      rw [runFrom_of_fault hFault] at hDone
      exact hFault hDone
    rw [runFrom] at hDone ⊢
    rw [creations, carriedOut_cons, List.map_append, List.filter_append,
      ih (past_next hPast env timeout row?) hDone]
    refine congrArg (· ++ _) ?_
    cases row? with
    | none =>
      rw [creation?]
      split <;> rfl
    | some row =>
      cases hMakes : row.makes with
      | false =>
        have hNone : s.creation? env timeout (some row) = none := by
          rw [creation?_some, hMakes]
          rfl
        rw [hNone, Option.toList_some]
        split
        · rfl
        · rw [List.filter_cons_of_neg (ne_true_of_eq_false hMakes)]
          rfl
      | true =>
        rcases skipped_of_makes hGoing hMakes env timeout line with
          ⟨w, hMade, hSkipped⟩ | ⟨hNone, why, hNoted, hLine⟩
        · have hPast' : ∀ why ∈ (s.next env timeout line (some row)).skipped, why.line < line := by
            rw [hSkipped]
            exact hPast
          rw [hMade, if_neg (ne_true_of_eq_false (skips_eq_false hPast' env timeout rest)),
            Option.toList_some, Option.toList_some, List.filter_cons_of_pos hMakes]
          rfl
        · rw [hNone, if_pos (skips_of_noted hNoted hLine (line + 1) rest)]
          rfl

-- ---------------------------------------------------------------------------
-- What labels stand for
-- ---------------------------------------------------------------------------

/-- A wallet field comes to the id of the wallet that it stands for. -/
theorem Bound.resolve_eq (hBound : s.Bound made) (field : String) :
    s.resolve field = idFor made field := by
  unfold resolve idFor
  rw [hBound.labels]
  cases latest? made field <;> rfl

theorem mem_of_latest? {label : String} {w : Wallet} (hLatest : latest? made label = some w) :
    ∃ row, (row, w) ∈ made ∧ row.wallet = label := by
  obtain ⟨⟨row, w'⟩, hLast, rfl⟩ := Option.map_eq_some_iff.mp hLatest
  have hMem := List.mem_of_getLast? hLast
  rw [List.mem_filter, decide_eq_true_iff] at hMem
  exact ⟨row, hMem⟩

/-- The wallet that a label stands for is there. -/
theorem Bound.exists_later (hBound : s.Bound made) {label : String} {w : Wallet}
    (hLatest : latest? made label = some w) : ∃ w', s.wallet? w.id = some w' ∧ w.Later w' := by
  obtain ⟨row, hMem, -⟩ := mem_of_latest? hLatest
  exact hBound.descends.ledger.store.exists_later (List.mem_map.mpr ⟨(row, w), hMem, rfl⟩)

/-- The commands that name wallets name those that their fields stand for. -/
theorem Bound.fields (hBound : s.Bound made) :
    (∀ r, s.command row = .ok (.topup r) → r.walletId = idFor made row.wallet) ∧
      ∀ r, s.command row = .ok (.transfer r) →
        r.senderWalletId = idFor made row.wallet ∧ r.receiverWalletId = idFor made row.toWallet := by
  rw [← hBound.resolve_eq, ← hBound.resolve_eq]
  refine ⟨fun r hCommand => ?_, fun r hCommand => ?_⟩
  all_goals
    unfold command at hCommand
    split at hCommand <;> cases hCommand
  · rfl
  · exact ⟨rfl, rfl⟩

-- ---------------------------------------------------------------------------
-- The report
-- ---------------------------------------------------------------------------

theorem Bound.mem_keys_iff (hBound : s.Bound made) {label : String} :
    label ∈ s.labels.keys ↔ label ∈ made.map (·.1.wallet) := by
  rw [Table.mem_keys_iff, hBound.labels, Option.isSome_map, isSome_latest?]

/-- The labels are listed in the order of their bytes. -/
theorem pairwise_sorted (labels : Labels) :
    ((Labels.sorted labels).map Prod.fst).Pairwise fun x y => bytesOf x < bytesOf y := by
  have hSorted := @List.pairwise_mergeSort (String × String × String)
    (fun a b => decide (a.1 ≤ b.1)) ?_ ?_ labels.entries
  · have hNodup : ((Labels.sorted labels).map Prod.fst).Nodup :=
      ((List.mergeSort_perm _ _).map Prod.fst).nodup_iff.mpr labels.nodup
    have hOrder : ((Labels.sorted labels).map Prod.fst).Pairwise (· ≤ ·) :=
      List.pairwise_map.mpr (hSorted.imp of_decide_eq_true)
    refine (hOrder.and hNodup).imp fun {x y} hBoth => ?_
    exact bytesOf_lt_bytesOf.mpr (lt_of_le_of_ne hBoth.1 hBoth.2)
  · intro a b c hFirst hSecond
    rw [decide_eq_true_iff] at *
    exact le_trans hFirst hSecond
  · intro a b
    rw [Bool.or_eq_true, decide_eq_true_iff, decide_eq_true_iff]
    exact le_total a.1 b.1

/-- The line of a label, with the wallet that it stands for. -/
theorem Bound.reportRow?_eq (hBound : s.Bound made) {e : String × String × String}
    (hMem : e ∈ s.labels.entries) :
    ∃ w w', latest? made e.1 = some w ∧ w.Later w' ∧ s.wallet? w.id = some w' ∧
      reportRow? s.schedule.ledger.store e = some [e.1, w'.userId.text, w'.balance.text] := by
  obtain ⟨label, id, user⟩ := e
  have hFound : s.labels.get? label = some (id, user) := Table.lookup_of_mem s.labels.nodup hMem
  rw [hBound.labels] at hFound
  obtain ⟨w, hLatest, hTexts⟩ := Option.map_eq_some_iff.mp hFound
  obtain ⟨rfl, rfl⟩ := Prod.mk.inj hTexts
  obtain ⟨w', hWallet, hLater⟩ := hBound.exists_later hLatest
  refine ⟨w, w', hLatest, hLater, hWallet, ?_⟩
  have hStored : s.schedule.ledger.store.wallet? w.id = some w' := hWallet
  rw [State.reportRow?_eq, WalletId.parseTrimmed?_text, Option.bind_some, hStored, hLater.userId_eq]
  rfl

/-- The report has one line for each label, in the order of their bytes, with the owner and the balance of
the wallet that the label stands for. -/
theorem Bound.report_lines (hBound : s.Bound made) :
    ∃ lines : List (String × Wallet),
      s.report = reportHeader :: lines.map (fun e => [e.1, e.2.userId.text, e.2.balance.text]) ∧
      (lines.map Prod.fst).Pairwise (fun x y => bytesOf x < bytesOf y) ∧
      (∀ label, label ∈ lines.map Prod.fst ↔ label ∈ made.map (·.1.wallet)) ∧
      ∀ e ∈ lines, ∃ w, latest? made e.1 = some w ∧ w.Later e.2 ∧ s.wallet? w.id = some e.2 := by
  have hLines : ∀ es : List (String × String × String), (∀ e ∈ es, e ∈ s.labels.entries) →
      ∃ lines : List (String × Wallet),
        es.filterMap (reportRow? s.schedule.ledger.store) =
          lines.map (fun e => [e.1, e.2.userId.text, e.2.balance.text]) ∧
        lines.map Prod.fst = es.map Prod.fst ∧
        ∀ e ∈ lines, ∃ w, latest? made e.1 = some w ∧ w.Later e.2 ∧ s.wallet? w.id = some e.2 := by
    intro es hAll
    induction es with
    | nil => exact ⟨[], rfl, rfl, by rintro _ ⟨⟩⟩
    | cons e es ih =>
      obtain ⟨hMem, hRest⟩ := List.forall_mem_cons.mp hAll
      obtain ⟨w, w', hLatest, hLater, hWallet, hRow⟩ := hBound.reportRow?_eq hMem
      obtain ⟨lines, hReport, hLabels, hWallets⟩ := ih hRest
      refine ⟨(e.1, w') :: lines, ?_, ?_, ?_⟩
      · rw [List.filterMap_cons_some hRow, hReport, List.map_cons]
      · rw [List.map_cons, List.map_cons, hLabels]
      · exact List.forall_mem_cons.mpr ⟨⟨w, hLatest, hLater, hWallet⟩, hWallets⟩
  obtain ⟨lines, hReport, hLabels, hWallets⟩ := hLines (Labels.sorted s.labels) fun e hMem =>
    List.mem_mergeSort.mp hMem
  refine ⟨lines, congrArg (reportHeader :: ·) hReport, ?_, fun label => ?_, hWallets⟩
  · rw [hLabels]
    exact pairwise_sorted s.labels
  · rw [hLabels, ← hBound.mem_keys_iff]
    exact ((List.mergeSort_perm _ _).map Prod.fst).mem_iff

end State

/-- The report of a replay from an empty ledger on has one line for each label that a row has given to a
wallet that it made, and no other, in the order of the labels' bytes. A line bears the owner and the
committed balance of the wallet that was given the label last. So do the wallet fields of rows: at each
row a field that is a label comes to the id of the wallet that was given it last, be it the text of an id
or not, and any other text is taken for an id as it is. The replay comes to its end, unless claims last
longer than there are instants; then the rows that made wallets are those that say so and were not
skipped. -/
theorem report_describes_labels (env : Surroundings) (timeout lifetime : Nat) (bytes : List UInt8) :
    let start := State.start (Schedule.empty lifetime)
    let final := run env timeout (Schedule.empty lifetime) bytes
    let made := start.creations env timeout 0 (rows bytes)
    ((final.fault = none ∨ Instant.limit ≤ lifetime) ∧
      (final.fault = none →
        made.map Prod.fst = (final.carriedOut 0 (rows bytes)).filter Row.makes)) ∧
    (∃ lines : List (String × Wallet),
      final.report = reportHeader :: lines.map (fun e => [e.1, e.2.userId.text, e.2.balance.text]) ∧
      (lines.map Prod.fst).Pairwise (fun x y => bytesOf x < bytesOf y) ∧
      (∀ label, label ∈ lines.map Prod.fst ↔ label ∈ made.map (·.1.wallet)) ∧
      ∀ e ∈ lines, ∃ w, latest? made e.1 = some w ∧ w.Later e.2 ∧ final.wallet? w.id = some e.2) ∧
    ((made.map (·.2.id)).Nodup ∧
      ∀ e ∈ made, UserId.parseTrimmed? e.1.user = some e.2.userId) ∧
    ∀ n row, (rows bytes)[n]? = some (some row) →
      let s := start.runFrom env timeout 0 ((rows bytes).take n)
      let before := start.creations env timeout 0 ((rows bytes).take n)
      before <+: made ∧
      ((∀ r, s.command row = .ok (.topup r) → r.walletId = idFor before row.wallet) ∧
        ∀ r, s.command row = .ok (.transfer r) →
          r.senderWalletId = idFor before row.wallet ∧
            r.receiverWalletId = idFor before row.toWallet) ∧
      ∀ label w, latest? before label = some w →
        WalletId.parseTrimmed? (idFor before label) = some w.id ∧
          ∃ w', s.wallet? w.id = some w' ∧ w.Later w' := by
  intro start final made
  have hStart : start.Bound [] := State.bound_start lifetime
  have hBound : final.Bound made := State.bound_runFrom hStart env timeout 0 (rows bytes)
  refine ⟨⟨?_, fun hDone => ?_⟩, hBound.report_lines, ⟨?_, fun e hMem => (hBound.rows e hMem).2⟩, ?_⟩
  · by_cases hFault : final.fault = none
    · exact Or.inl hFault
    · exact Or.inr (State.runFrom_fault (idle_empty lifetime) rfl 0 (rows bytes) hFault)
  · exact State.creations_carriedOut (by rintro _ ⟨⟩) hDone
  · have hNodup := hBound.descends.ledger.store.nodup_ids
    rw [List.map_map] at hNodup
    exact hNodup
  · intro n row hRow s before
    have hBefore : s.Bound before := State.bound_runFrom hStart env timeout 0 ((rows bytes).take n)
    have hSplit := State.creations_append env timeout start 0 ((rows bytes).take n)
      ((rows bytes).drop n)
    rw [List.take_append_drop] at hSplit
    refine ⟨⟨_, hSplit.symm⟩, hBefore.fields, fun label w hLatest =>
      ⟨?_, hBefore.exists_later hLatest⟩⟩
    unfold idFor
    rw [hLatest]
    exact WalletId.parseTrimmed?_text w.id

/-! ## Labels that move -/

/-- A label that is given twice, and one that reads as the id of the first wallet. -/
def movedLabels : List UInt8 := sheet [
  ["type", "user", "wallet"],
  ["create", ada, "a"],
  ["create", bob, "a"],
  ["create", ada, "00000000000000000000000001"]]

/-- The replay of them. -/
abbrev movedEnd : State := run standstill 0 (Schedule.empty 60000) movedLabels

example :
    movedEnd.resolve "a" = "00000000000000000000000002" ∧
      movedEnd.resolve "00000000000000000000000001" = "00000000000000000000000003" ∧
      movedEnd.resolve "00000000000000000000000002" = "00000000000000000000000002" := by
  decide +kernel

end Replay

end Purse
