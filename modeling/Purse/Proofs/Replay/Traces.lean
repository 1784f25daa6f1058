import Purse.Replay.Report
import Purse.Proofs.Crowd.Twins
import Purse.Proofs.Replay.Books

/-!
# Rows that leave no trace

A row that is skipped has undone all that it did. So a replay without some of the rows that were skipped
is the same replay: every other row has the same outcome, the labels stand for the same wallets, and the
report is the same. There is one exception: a top-up that its wallet refuses keeps its key claimed, and
a later row with this key is rejected for it.

Two replays are compared row by row (`State.Tracks`). The wall clock stands still in both, and both draw
the same random bits for a wallet that both make; else they could not give it the same id.

## Definitions

* `Reason`, `State.outcome`: why a row was skipped.
* `without`: a list without some of its members.
* `State.Traceless`: all rows of a choice were skipped, none of them by its wallet.
* `State.Draws`: two replays draw the same random bits for the wallets that both make.

## Results

* `State.Tracks.next`, `State.Tracks.drop`: one row, in both replays and in one of them.
* `State.Tracks.runFrom`: all rows.
* `skipped_rows_leave_no_trace`: a replay from an empty ledger on.
-/

namespace Purse.Replay

open Store

/-- Why a row was skipped. -/
inductive Reason where
  | malformed
  | rejected (command : String) (error : LedgerError)
  deriving DecidableEq, Repr

/-- The note of a row that is skipped at a line. -/
def Reason.note (line : Nat) : Reason → Skip
  | malformed => .malformed line
  | rejected command error => .rejected line command error

/-- The reason in a note. -/
def Skip.reason : Skip → Reason
  | malformed _ => .malformed
  | rejected _ command error => .rejected command error

theorem Reason.line_note (line : Nat) (reason : Reason) : (reason.note line).line = line := by
  cases reason <;> rfl

theorem Reason.reason_note (line : Nat) (reason : Reason) : (reason.note line).reason = reason := by
  cases reason <;> rfl

/-- A list without the members at some places, of which the first one is given. -/
def without {α : Type} (drop : Nat → Bool) : Nat → List α → List α
  | _, [] => []
  | n, x :: xs => if drop n then without drop (n + 1) xs else x :: without drop (n + 1) xs

theorem map_without {α β : Type} (f : α → β) (drop : Nat → Bool) (n : Nat) (xs : List α) :
    (without drop n xs).map f = without drop n (xs.map f) := by
  induction xs generalizing n with
  | nil => rfl
  | cons x xs ih =>
    rw [List.map_cons, without, without]
    split
    · exact ih (n + 1)
    · exact congrArg (f x :: ·) (ih (n + 1))

namespace State

variable {env env' : Surroundings} {timeout : Nat} {expiry : Instant} {s s' t : State}
  {line line' : Nat} {row? : Option Row} {row : Row} {rows : List (Option Row)}
  {time : Timestamp} {reason? : Option Reason}

/-- Why the row at a line was skipped, if it was. -/
def outcome (s : State) (line : Nat) : Option Reason :=
  (s.skipped.find? (·.line == line)).map Skip.reason

/-- Why each of some rows was skipped, by the line of the first one. -/
def outcomes (s : State) (line count : Nat) : List (Option Reason) :=
  (List.range' line count).map s.outcome

/-- The notes of a row, by why it is skipped. -/
def notes (line : Nat) (reason? : Option Reason) : List Skip := (reason?.map (Reason.note line)).toList

/-- The outcome of a row is in its note. -/
theorem outcome_of_noted (hPast : ∀ why ∈ s.skipped, why.line < line)
    (hNoted : s'.skipped = s.skipped ++ notes line reason?) (env : Surroundings) (timeout : Nat)
    (rest : List (Option Row)) :
    (s'.runFrom env timeout (line + 1) rest).outcome line = reason? := by
  obtain ⟨added, hAdded, hLines⟩ := runFrom_skipped env timeout s' (line + 1) rest
  have hBefore : s.skipped.find? (·.line == line) = none := by
    rw [List.find?_eq_none]
    intro why hMem
    have hLess := hPast why hMem
    simp only [beq_iff_eq]
    omega
  have hAfter : added.find? (·.line == line) = none := by
    rw [List.find?_eq_none]
    intro why hMem
    have hMore := hLines why hMem
    simp only [beq_iff_eq]
    omega
  unfold outcome
  rw [hAdded, hNoted, List.find?_append, List.find?_append, hBefore, hAfter, Option.or_none,
    Option.none_or]
  cases reason? with
  | none => rfl
  | some reason =>
    show (List.find? _ [reason.note line]).map Skip.reason = some reason
    rw [List.find?_singleton, reason.line_note, beq_self_eq_true, if_pos rfl, Option.map_some,
      reason.reason_note]

/-- The notes after a row are of lines up to the row's. -/
theorem past_next (hPast : ∀ why ∈ s.skipped, why.line < line) (env : Surroundings) (timeout : Nat)
    (row? : Option Row) : ∀ why ∈ (s.next env timeout line row?).skipped, why.line < line + 1 := by
  obtain ⟨added, hAdded, hLine⟩ := next_skipped env timeout s line row?
  rw [hAdded]
  intro why hMem
  rcases List.mem_append.mp hMem with hOld | hNew
  · exact Nat.lt_succ_of_lt (hPast why hOld)
  · rw [hLine why hNew]
    exact Nat.lt_succ_self line

-- ---------------------------------------------------------------------------
-- One row
-- ---------------------------------------------------------------------------

/-- A replay has come as far as another one: to the same labels and to the same wallets, but for their
times; and unless a fault has ended both, rows to come do not tell them apart. -/
structure Tracks (expiry : Instant) (ms : Nat) (s t : State) : Prop where
  labels : t.labels = s.labels
  fault : t.fault = s.fault
  wallets : WalletsAlike s.wallet? t.wallet?
  twin : s.fault = none → s.schedule.ledger.Twin expiry ms t.schedule.ledger

/-- Labels give the same commands. -/
theorem command_congr (hLabels : t.labels = s.labels) (row : Row) : t.command row = s.command row := by
  unfold command resolve
  rw [hLabels]

/-- A replay after a row whose command has ended. -/
def ended (s : State) (line : Nat) (row : Row) (schedule : Schedule) : Ending → State
  | .result (.ok reply) => { s with schedule, labels := (s.label row reply).labels }
  | .result (.error e) => { s with schedule }.skip (.rejected line row.command e)
  | .fault f => { s with schedule, fault := some f }

/-- A row that asks for nothing that could be done is skipped. -/
theorem apply_of_error {e : LedgerError} (hCommand : s.command row = .error e) :
    s.apply env timeout line row = s.skip ((Reason.rejected row.command e).note line) := by
  unfold apply
  rw [hCommand]
  rfl

theorem apply_of_execute {c : Command} {schedule : Schedule} {ending : Ending}
    {others : List (Agent × Ending)} (hCommand : s.command row = .ok c)
    (hExecute : s.schedule.execute env c.program (some (s.schedule.ledger.now + timeout)) =
      (schedule, ending, others)) :
    s.apply env timeout line row = s.ended line row schedule ending := by
  unfold apply
  rw [hCommand]
  simp only [hExecute]
  cases ending with
  | fault f => rfl
  | result r =>
    cases r with
    | error e => rfl
    | ok reply => exact label_withSchedule s schedule row reply

/-- A reply gives the same label to the same labels. -/
theorem labels_congr (hLabels : t.labels = s.labels) (row : Row) (reply : Reply) :
    (t.label row reply).labels = (s.label row reply).labels := by
  cases reply with
  | wallet w => exact congrArg (·.put row.wallet (w.id.text, w.userId.text)) hLabels
  | unit | found | listed => exact hLabels

/-- The command of a row is no reader. -/
theorem isReader_of_command {c : Command} (hCommand : s.command row = .ok c) : c.isReader = false := by
  obtain ⟨-, -, userId, rfl⟩ | ⟨-, r, -, rfl⟩ | ⟨-, -, r, rfl⟩ := command_eq_ok hCommand <;> rfl

/-- A row that has a wallet made is one that says so. -/
theorem makes_of_command {userId : String} (hCommand : s.command row = .ok (.createWallet userId)) :
    row.makes = true := by
  obtain ⟨hMakes, -, -⟩ | ⟨-, r, -, hTopup⟩ | ⟨-, -, r, hTransfer⟩ := command_eq_ok hCommand
  · exact hMakes
  · cases hTopup
  · cases hTransfer

/-- A skipped row is the same in both replays, but for its line. -/
theorem Tracks.skip (hTracks : Tracks expiry time.toMillis.toNat s t) (line line' : Nat)
    (reason : Reason) :
    Tracks expiry time.toMillis.toNat (s.skip (reason.note line)) (t.skip (reason.note line')) :=
  ⟨hTracks.labels, hTracks.fault, hTracks.wallets, hTracks.twin⟩

/-- A command is carried out in both replays or refused in both, for the same reason. -/
theorem Tracks.apply (hTracks : Tracks expiry time.toMillis.toNat s t) (hGoing : s.fault = none)
    (hStill : ∀ n, env.wall n = time) (hStill' : ∀ n, env'.wall n = time)
    (hDraw : row.makes = true →
      env'.random t.schedule.ledger.readings = env.random s.schedule.ledger.readings)
    (timeout line line' : Nat) :
    ∃ reason?, (s.apply env timeout line row).skipped = s.skipped ++ notes line reason? ∧
      (t.apply env' timeout line' row).skipped = t.skipped ++ notes line' reason? ∧
      Tracks expiry time.toMillis.toNat (s.apply env timeout line row)
        (t.apply env' timeout line' row) := by
  have hSame : t.command row = s.command row := command_congr hTracks.labels row
  cases hCommand : s.command row with
  | error e =>
    rw [apply_of_error hCommand, apply_of_error (hSame.trans hCommand)]
    exact ⟨some (.rejected row.command e), rfl, rfl, hTracks.skip line line' _⟩
  | ok c =>
    obtain ⟨ending, u, v, hExecute, hExecute', hWallets, hTwins⟩ := (hTracks.twin hGoing).execute
      (isReader_of_command hCommand) hStill hStill'
      (fun userId hCreate => hDraw (makes_of_command (hCreate ▸ hCommand)))
      (some (s.schedule.ledger.now + timeout)) (some (t.schedule.ledger.now + timeout))
    rw [apply_of_execute hCommand hExecute, apply_of_execute (hSame.trans hCommand) hExecute']
    cases ending with
    | fault fault =>
      refine ⟨none, (List.append_nil _).symm, (List.append_nil _).symm, hTracks.labels, rfl,
        hWallets, ?_⟩
      rintro ⟨⟩
    | result r =>
      have hTwin' := hTwins r rfl
      cases r with
      | error e =>
        exact ⟨some (.rejected row.command e), rfl, rfl, hTracks.labels, hTracks.fault,
          hWallets, fun _ => hTwin'⟩
      | ok reply =>
        exact ⟨none, (List.append_nil _).symm, (List.append_nil _).symm,
          labels_congr hTracks.labels row reply, hTracks.fault, hWallets, fun _ => hTwin'⟩

/-- A row leaves a note or none, for the same reason in both replays, and both have come as far again. -/
theorem Tracks.next (hTracks : Tracks expiry time.toMillis.toNat s t)
    (hStill : ∀ n, env.wall n = time) (hStill' : ∀ n, env'.wall n = time)
    (hDraw : ∀ row, row? = some row → row.makes = true →
      env'.random t.schedule.ledger.readings = env.random s.schedule.ledger.readings)
    (timeout line line' : Nat) :
    ∃ reason?, (s.next env timeout line row?).skipped = s.skipped ++ notes line reason? ∧
      (t.next env' timeout line' row?).skipped = t.skipped ++ notes line' reason? ∧
      Tracks expiry time.toMillis.toNat (s.next env timeout line row?)
        (t.next env' timeout line' row?) := by
  cases hFault : s.fault with
  | some fault =>
    have hEnded : s.fault ≠ none := by
      rw [hFault]
      rintro ⟨⟩
    rw [next_of_fault hEnded, next_of_fault (hTracks.fault ▸ hEnded)]
    exact ⟨none, (List.append_nil _).symm, (List.append_nil _).symm, hTracks⟩
  | none =>
    have hFault' : t.fault = none := hTracks.fault.trans hFault
    cases row? with
    | none =>
      rw [next_malformed hFault, next_malformed hFault']
      exact ⟨some .malformed, rfl, rfl, hTracks.skip line line' .malformed⟩
    | some row =>
      rw [next_row hFault, next_row hFault']
      exact hTracks.apply hFault hStill hStill' (hDraw row rfl) timeout line line'

/-- A row that leaves a note leaves no trace besides, unless it is a top-up that its wallet refuses. -/
theorem Tracks.drop (hTracks : Tracks expiry time.toMillis.toNat s t)
    (hStill : ∀ n, env.wall n = time)
    (hSpared : ∀ row c, row? = some row → s.command row = .ok c →
      c.isRefusedByWallet s.schedule.ledger = false) (timeout line : Nat) :
    (s.next env timeout line row?).skipped = s.skipped ∨
      Tracks expiry time.toMillis.toNat (s.next env timeout line row?) t := by
  cases hFault : s.fault with
  | some fault =>
    have hEnded : s.fault ≠ none := by
      rw [hFault]
      rintro ⟨⟩
    rw [next_of_fault hEnded]
    exact Or.inl rfl
  | none =>
    have hTwin := hTracks.twin hFault
    have hSkip : ∀ why : Skip, Tracks expiry time.toMillis.toNat (s.skip why) t := fun _ =>
      ⟨hTracks.labels, hTracks.fault, hTracks.wallets, hTracks.twin⟩
    cases row? with
    | none =>
      rw [next_malformed hFault]
      exact Or.inr (hSkip _)
    | some row =>
      rw [next_row hFault]
      cases hCommand : s.command row with
      | error e =>
        rw [apply_of_error hCommand]
        exact Or.inr (hSkip _)
      | ok c =>
        obtain ⟨r, schedule, hExecute, -⟩ | ⟨fault, schedule, hExecute, -⟩ := Schedule.idle_execute
          hTwin.idle c env (some (s.schedule.ledger.now + timeout))
        · rw [apply_of_execute hCommand hExecute]
          cases r with
          | ok reply => exact Or.inl rfl
          | error e =>
            have hTwin' := hTwin.refused hStill (isReader_of_command hCommand)
              (hSpared row c rfl hCommand) hExecute
            exact Or.inr ⟨hTracks.labels, hTracks.fault, hTwin'.wallets, fun _ => hTwin'⟩
        · rw [apply_of_execute hCommand hExecute]
          exact Or.inl rfl

-- ---------------------------------------------------------------------------
-- All rows
-- ---------------------------------------------------------------------------

variable {drop : Nat → Bool}

/-- All rows at some lines are skipped in the end, and none of them is a top-up that its wallet
refuses. -/
def Traceless (env : Surroundings) (timeout : Nat) (drop : Nat → Bool) (s : State) (line : Nat)
    (rows : List (Option Row)) : Prop :=
  ∀ n < rows.length, drop (line + n) = true →
    (s.runFrom env timeout line rows).skips (line + n) = true ∧
    ∀ row c, rows[n]? = some (some row) →
      (s.runFrom env timeout line (rows.take n)).command row = .ok c →
      c.isRefusedByWallet (s.runFrom env timeout line (rows.take n)).schedule.ledger = false

/-- Two replays, one of them without the rows at some lines, draw the same random bits for the wallets
that both make. -/
def Draws (env env' : Surroundings) (timeout : Nat) (drop : Nat → Bool) (s t : State)
    (line line' : Nat) (rows : List (Option Row)) : Prop :=
  ∀ n row, rows[n]? = some (some row) → row.makes = true → drop (line + n) = false →
    env'.random (t.runFrom env' timeout line' (without drop line (rows.take n))).schedule.ledger.readings =
      env.random (s.runFrom env timeout line (rows.take n)).schedule.ledger.readings

theorem Traceless.tail {rest : List (Option Row)}
    (hTraceless : s.Traceless env timeout drop line (row? :: rest)) :
    (s.next env timeout line row?).Traceless env timeout drop (line + 1) rest := by
  intro n hLess hDrop
  rw [Nat.add_right_comm] at hDrop ⊢
  exact hTraceless (n + 1) (Nat.succ_lt_succ hLess) hDrop

theorem Draws.tail_of_dropped {rest : List (Option Row)} (hDrop : drop line = true)
    (hDraws : Draws env env' timeout drop s t line line' (row? :: rest)) :
    Draws env env' timeout drop (s.next env timeout line row?) t (line + 1) line' rest := by
  intro n row hRow hMakes hKept
  rw [Nat.add_right_comm] at hKept
  have hSame := hDraws (n + 1) row hRow hMakes hKept
  rwa [List.take_succ_cons, without, if_pos hDrop] at hSame

theorem Draws.tail_of_kept {rest : List (Option Row)} (hDrop : drop line = false)
    (hDraws : Draws env env' timeout drop s t line line' (row? :: rest)) :
    Draws env env' timeout drop (s.next env timeout line row?) (t.next env' timeout line' row?)
      (line + 1) (line' + 1) rest := by
  intro n row hRow hMakes hKept
  rw [Nat.add_right_comm] at hKept
  have hSame := hDraws (n + 1) row hRow hMakes hKept
  rwa [List.take_succ_cons, without, if_neg (by rw [hDrop]; exact Bool.false_ne_true)] at hSame

theorem outcomes_succ (s : State) (line count : Nat) :
    s.outcomes line (count + 1) = s.outcome line :: s.outcomes (line + 1) count := rfl

/-- The rows are gone through in both replays, but for those that are left out of the second one. -/
theorem Tracks.runFrom (hTracks : Tracks expiry time.toMillis.toNat s t)
    (hStill : ∀ n, env.wall n = time) (hStill' : ∀ n, env'.wall n = time)
    (hPast : ∀ why ∈ s.skipped, why.line < line) (hPast' : ∀ why ∈ t.skipped, why.line < line')
    (hTraceless : s.Traceless env timeout drop line rows)
    (hDraws : Draws env env' timeout drop s t line line' rows) :
    Tracks expiry time.toMillis.toNat (s.runFrom env timeout line rows)
        (t.runFrom env' timeout line' (without drop line rows)) ∧
      (t.runFrom env' timeout line' (without drop line rows)).outcomes line'
          (without drop line rows).length =
        without drop line ((s.runFrom env timeout line rows).outcomes line rows.length) := by
  induction rows generalizing s t line line' with
  | nil => exact ⟨hTracks, rfl⟩
  | cons row? rest ih =>
    have hTail := hTraceless.tail
    have hPastNext := past_next hPast env timeout row?
    rw [List.length_cons, outcomes_succ, State.runFrom, without, without]
    cases hDrop : drop line with
    | true =>
      rw [if_pos rfl, if_pos rfl]
      have hNoted := hTraceless 0 (Nat.zero_lt_succ _) hDrop
      rcases hTracks.drop hStill (fun row c hRow => hNoted.2 row c (congrArg some hRow)) timeout line
        with hNone | hTracks'
      · -- a row that is skipped has left a note
        have hPastSame : ∀ why ∈ (s.next env timeout line row?).skipped, why.line < line := by
          rw [hNone]
          exact hPast
        cases (skips_eq_false hPastSame env timeout rest).symm.trans hNoted.1
      · exact ih hTracks' hPastNext hPast' hTail (hDraws.tail_of_dropped hDrop)
    | false =>
      rw [if_neg Bool.false_ne_true, if_neg Bool.false_ne_true]
      obtain ⟨reason?, hNoted, hNoted', hTracks'⟩ := hTracks.next hStill hStill'
        (fun row hRow hMakes => hDraws 0 row (congrArg some hRow) hMakes hDrop) timeout line line'
      obtain ⟨hTracksEnd, hOutcomes⟩ := ih hTracks' hPastNext (past_next hPast' env' timeout row?)
        hTail (hDraws.tail_of_kept hDrop)
      refine ⟨hTracksEnd, ?_⟩
      rw [List.length_cons, outcomes_succ, State.runFrom, outcome_of_noted hPast hNoted,
        outcome_of_noted hPast' hNoted', hOutcomes]

-- ---------------------------------------------------------------------------
-- The report
-- ---------------------------------------------------------------------------

/-- The line of a label tells nothing but the balance of its wallet. -/
theorem reportRow?_eq (store : Store) (label id user : String) :
    reportRow? store (label, id, user) =
      ((WalletId.parseTrimmed? id).bind fun id => (store.wallet? id).map Wallet.balance).map
        fun balance => [label, user, balance.text] := by
  cases hParse : WalletId.parseTrimmed? id with
  | none => simp [reportRow?, hParse]
  | some x => cases hWallet : store.wallet? x <;> simp [reportRow?, hParse, hWallet]

/-- Replays that have come as far as each other report the same. -/
theorem Tracks.report_eq {ms : Nat} (hTracks : Tracks expiry ms s t) : t.report = s.report := by
  have hBalances : ∀ id, (t.schedule.ledger.store.wallet? id).map Wallet.balance =
      (s.schedule.ledger.store.wallet? id).map Wallet.balance := hTracks.wallets.balance_eq
  unfold report
  rw [hTracks.labels]
  refine congrArg (reportHeader :: ·) (List.filterMap_congr fun e _ => ?_)
  obtain ⟨label, id, user⟩ := e
  simp only [reportRow?_eq, hBalances]

end State

/-- The rows of a file after its header. -/
def rowsOf (header : Csv.Record) (records : List Csv.Record) : List (Option Row) :=
  records.map (Row.ofRecord? (Layout.ofHeader header))

/-- The replay of records under a header, over an empty ledger. The wall clock stands still, and random bits
are drawn at each of its readings. -/
def replayed (time : Timestamp) (random : Nat → Nat) (timeout lifetime : Nat) (header : Csv.Record)
    (records : List Csv.Record) : State :=
  (State.start (Schedule.empty lifetime)).runFrom ⟨fun _ => time, random⟩ timeout 0
    (rowsOf header records)

/-- Skipped rows leave no trace. A replay from an empty ledger on is compared with the replay of the same
records without some of those that were skipped, where none that is left out is a top-up that its wallet
refused. The wall clock stands still, and both draw the same random bits for a wallet that both make.
Then all records that are left have the same outcomes, the labels stand for the same wallets with the
same balances, and the report is the same. -/
theorem skipped_rows_leave_no_trace (time : Timestamp) (random random' : Nat → Nat)
    (timeout lifetime : Nat) (header : Csv.Record) (records : List Csv.Record) (drop : Nat → Bool)
    (hTraceless : (State.start (Schedule.empty lifetime)).Traceless ⟨fun _ => time, random⟩ timeout
      drop 0 (rowsOf header records))
    (hDraws : State.Draws ⟨fun _ => time, random⟩ ⟨fun _ => time, random'⟩ timeout drop
      (State.start (Schedule.empty lifetime)) (State.start (Schedule.empty lifetime)) 0 0
      (rowsOf header records)) :
    let full := replayed time random timeout lifetime header records
    let bare := replayed time random' timeout lifetime header (without drop 0 records)
    bare.outcomes 0 (without drop 0 records).length =
        without drop 0 (full.outcomes 0 records.length) ∧
      bare.labels = full.labels ∧ WalletsAlike full.wallet? bare.wallet? ∧
      bare.fault = full.fault ∧ bare.output = full.output := by
  intro full bare
  have hIdle : (Ledger.empty lifetime).Idle lifetime := idle_empty lifetime
  have hStart : State.Tracks lifetime time.toMillis.toNat (State.start (Schedule.empty lifetime))
      (State.start (Schedule.empty lifetime)) := by
    refine ⟨rfl, rfl, WalletsAlike.refl _, fun _ => ⟨hIdle, hIdle, WalletsAlike.refl _, .refl _ _, rfl,
      fun _ => rfl, fun _ id hThere => ?_⟩⟩
    cases hThere
  obtain ⟨hTracks, hOutcomes⟩ := hStart.runFrom (fun _ => rfl) (fun _ => rfl) (by rintro _ ⟨⟩)
    (by rintro _ ⟨⟩) hTraceless hDraws
  have hRows : without drop 0 (rowsOf header records) = rowsOf header (without drop 0 records) :=
    (map_without _ drop 0 records).symm
  rw [hRows] at hTracks hOutcomes
  unfold rowsOf at hOutcomes
  rw [List.length_map, List.length_map] at hOutcomes
  exact ⟨hOutcomes, hTracks.labels, hTracks.wallets, hTracks.fault,
    congrArg Csv.write hTracks.report_eq⟩

/-! ## A day with slips -/

/-- The names of the columns. -/
def columnNames : Csv.Record := ["type", "user", "wallet", "to_user", "to_wallet", "amount", "key"].map ascii

/-- Two wallets and a transfer between them, with slips: a top-up of nothing under a key that is used later
on, a wallet for nobody, a top-up that comes twice, a transfer that is not covered, and a record that
breaks off. -/
def slips : List Csv.Record := [
  ["create", ada, "a", "", "", "", ""],
  ["topup", ada, "a", "", "", "0", "first"],
  ["create", "nobody", "b", "", "", "", ""],
  ["create", bob, "b", "", "", "", ""],
  ["topup", ada, "a", "", "", "10.50", "first"],
  ["topup", ada, "a", "", "", "10.50", "first"],
  ["transfer", bob, "b", ada, "a", "100", ""],
  ["create"],
  ["transfer", ada, "a", bob, "b", "4.25", ""]].map (·.map ascii)

/-- The lines of four of them. -/
def isSlip (line : Nat) : Bool := [1, 2, 6, 7].contains line

/-- The rows of that day. -/
abbrev slipRows : List (Option Row) := rowsOf columnNames slips

/-- Surroundings in which nothing moves. -/
def standstill : Surroundings := ⟨fun _ => .epoch, fun _ => 0⟩

/-- The replay of that day up to a row. -/
def slipsUpTo (n : Nat) : State :=
  (State.start (Schedule.empty 60000)).runFrom standstill 0 0 (slipRows.take n)

/-- Without four of its five slips that day comes to the same. -/
theorem slips_leave_no_trace :
    (slipsUpTo 9).outcomes 0 9 = [none, some (.rejected "topup" .invalidAmount),
        some (.rejected "create" .invalidUser), none, none,
        some (.rejected "topup" .alreadyExists), some (.rejected "transfer" .insufficientBalance),
        some .malformed, none] ∧
      (replayed .epoch (fun _ => 0) 0 60000 columnNames (without isSlip 0 slips)).outcomes 0 5 =
        [none, none, none, some (.rejected "topup" .alreadyExists), none] ∧
      (replayed .epoch (fun _ => 0) 0 60000 columnNames (without isSlip 0 slips)).output =
        (replayed .epoch (fun _ => 0) 0 60000 columnNames slips).output := by
  have hFacts : (slipsUpTo 9).outcomes 0 9 = [none, some (.rejected "topup" .invalidAmount),
        some (.rejected "create" .invalidUser), none, none,
        some (.rejected "topup" .alreadyExists), some (.rejected "transfer" .insufficientBalance),
        some .malformed, none] ∧
      ∀ n < slipRows.length, isSlip n = true → (slipsUpTo 9).skips n = true ∧
        ∀ row? ∈ slipRows[n]?, ∀ row ∈ row?, ∀ c ∈ ((slipsUpTo n).command row).toOption,
          c.isRefusedByWallet (slipsUpTo n).schedule.ledger = false := by
    decide +kernel
  obtain ⟨hOutcomes, hSlips⟩ := hFacts
  have hTraceless : (State.start (Schedule.empty 60000)).Traceless standstill 0 isSlip 0
      slipRows := by
    intro n hLess hDrop
    rw [Nat.zero_add] at hDrop ⊢
    obtain ⟨hSkips, hSpared⟩ := hSlips n hLess hDrop
    refine ⟨hSkips, fun row c hRow hCommand => hSpared (some row) hRow row rfl c ?_⟩
    have hNext : (slipsUpTo n).command row = .ok c := hCommand
    rw [hNext]
    rfl
  obtain ⟨hSame, -, -, -, hOutput⟩ := skipped_rows_leave_no_trace .epoch (fun _ => 0) (fun _ => 0) 0
    60000 columnNames slips isSlip hTraceless fun _ _ _ _ _ => rfl
  refine ⟨hOutcomes, hSame.trans ?_, hOutput⟩
  exact congrArg (without isSlip 0) hOutcomes

end Purse.Replay
