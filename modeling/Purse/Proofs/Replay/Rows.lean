import Purse.Replay.Run
import Purse.Proofs.Crowd.Lone

/-!
# Row after row

A replay has its ledger to itself. So each row is either skipped, with a note that bears its line and
with nothing changed, or its command is carried out, which the wallets and the labels show
(`State.Passes`). A replay ends before its time only if a key is claimed that could be claimed beyond
the last instant. Notes are never taken back and bear their lines, so they tell in the end which rows
were carried out.

## Definitions

* `State.Passes`: what going through a row comes to.
* `State.carriedOut`: the rows that were neither malformed nor rejected, by the notes.

## Results

* `State.passes_next`: what going through a row comes to, over an idle ledger.
* `State.runFrom_skipped`: going through rows adds notes with the lines of those rows.
* `State.runFrom_fault`: why a replay ends before its time.
-/

namespace Purse.Replay

/-- The line of a row that was skipped. -/
def Skip.line : Skip → Nat
  | malformed line | rejected line _ _ => line

namespace State

variable {env : Surroundings} {timeout : Nat} {expiry : Instant} {s : State} {line : Nat}
  {row? : Option Row} {row : Row}

/-- The wallets in the ledger of a replay. -/
def wallet? (s : State) : WalletId → Option Wallet := s.schedule.ledger.store.wallet?

/-- Whether the row at a line was skipped. -/
def skips (s : State) (line : Nat) : Bool := s.skipped.any (·.line == line)

/-- Of some rows, the first of them at a given line, those that were neither malformed nor rejected. -/
def carriedOut (s : State) (line : Nat) (rows : List (Option Row)) : List Row :=
  (rows.zipIdx line).filterMap fun r => if s.skips r.2 then none else r.1

-- ---------------------------------------------------------------------------
-- One row
-- ---------------------------------------------------------------------------

/-- Nothing is done any more once a fault has ended a replay. -/
theorem next_of_fault (hFault : s.fault ≠ none) : s.next env timeout line row? = s := by
  unfold next
  rw [if_pos (Option.isSome_iff_ne_none.mpr hFault)]

theorem next_malformed (hGoing : s.fault = none) :
    s.next env timeout line none = s.skip (.malformed line) := by
  unfold next
  rw [if_neg (by rw [hGoing]; exact Bool.false_ne_true)]

theorem next_row (hGoing : s.fault = none) :
    s.next env timeout line (some row) = s.apply env timeout line row := by
  unfold next
  rw [if_neg (by rw [hGoing]; exact Bool.false_ne_true)]

/-- What going through a row comes to. -/
inductive Passes (expiry : Instant) (s : State) (line : Nat) (row? : Option Row) (s' : State) :
    Prop where
  /-- The row is skipped. -/
  | skipped (why : Skip) (line_eq : why.line = line) (skipped_eq : s'.skipped = s.skipped ++ [why])
      (labels_eq : s'.labels = s.labels) (wallet?_eq : s'.wallet? = s.wallet?)
      (idle : s'.schedule.ledger.Idle expiry) (fault_eq : s'.fault = none)
  /-- The command of the row is carried out. -/
  | carriedOut (row : Row) (c : Command) (reply : Reply) (row_eq : row? = some row)
      (command_eq : s.command row = .ok c) (skipped_eq : s'.skipped = s.skipped)
      (labels_eq : s'.labels = (s.label row reply).labels)
      (leaves : c.Leaves s.wallet? s'.wallet? (.ok reply))
      (idle : s'.schedule.ledger.Idle expiry) (fault_eq : s'.fault = none)
  /-- The replay ends at the limit of instants. -/
  | faulted (beyond : Instant.limit ≤ expiry) (fault_ne : s'.fault ≠ none)

/-- A reply gives a label, whatever the schedule, and does nothing else. -/
theorem label_withSchedule (s : State) (schedule : Schedule) (row : Row) (reply : Reply) :
    { s with schedule }.label row reply =
      { s with schedule, labels := (s.label row reply).labels } := by
  cases reply <;> rfl

/-- A row that is skipped without running a command. -/
theorem passes_skip (hIdle : s.schedule.ledger.Idle expiry) (hGoing : s.fault = none) (why : Skip) :
    s.Passes expiry why.line row? (s.skip why) :=
  .skipped why rfl rfl rfl rfl hIdle hGoing

theorem passes_apply (hIdle : s.schedule.ledger.Idle expiry) (hGoing : s.fault = none)
    (env : Surroundings) (timeout line : Nat) (row : Row) :
    s.Passes expiry line (some row) (s.apply env timeout line row) := by
  unfold apply
  cases hCommand : s.command row with
  | error e => exact passes_skip hIdle hGoing (.rejected line row.command e)
  | ok c =>
    simp only
    obtain ⟨r, schedule, hExecute, hIdle', hLeaves⟩ | ⟨fault, schedule, hExecute, hBeyond⟩ :=
      Schedule.idle_execute hIdle c env (some (s.schedule.ledger.now + timeout))
    · rw [hExecute]
      cases r with
      | error e => exact .skipped (.rejected line row.command e) rfl rfl rfl hLeaves hIdle' hGoing
      | ok reply =>
        simp only [label_withSchedule]
        exact .carriedOut row c reply rfl hCommand rfl rfl hLeaves hIdle' hGoing
    · rw [hExecute]
      exact .faulted hBeyond (by rintro ⟨⟩)

/-- What going through a row comes to, over an idle ledger. -/
theorem passes_next (hIdle : s.schedule.ledger.Idle expiry) (hGoing : s.fault = none)
    (env : Surroundings) (timeout line : Nat) (row? : Option Row) :
    s.Passes expiry line row? (s.next env timeout line row?) := by
  cases row? with
  | none =>
    rw [next_malformed hGoing]
    exact passes_skip hIdle hGoing (.malformed line)
  | some row =>
    rw [next_row hGoing]
    exact passes_apply hIdle hGoing env timeout line row

/-- A row leaves at most one note, of its own line. -/
theorem next_skipped (env : Surroundings) (timeout : Nat) (s : State) (line : Nat)
    (row? : Option Row) :
    ∃ added, (s.next env timeout line row?).skipped = s.skipped ++ added ∧
      ∀ why ∈ added, why.line = line := by
  have hNone : ∃ added, s.skipped = s.skipped ++ added ∧ ∀ why ∈ added, why.line = line :=
    ⟨[], (List.append_nil _).symm, by rintro _ ⟨⟩⟩
  have hOne : ∀ why : Skip, why.line = line →
      ∃ added, s.skipped ++ [why] = s.skipped ++ added ∧ ∀ why ∈ added, why.line = line := by
    intro why hLine
    refine ⟨[why], rfl, fun other hMem => ?_⟩
    rw [List.mem_singleton.mp hMem]
    exact hLine
  unfold next
  split
  · exact hNone
  · cases row? with
    | none => exact hOne (.malformed line) rfl
    | some row =>
      show ∃ added, (s.apply env timeout line row).skipped = s.skipped ++ added ∧ _
      unfold apply
      cases s.command row with
      | error e => exact hOne (.rejected line row.command e) rfl
      | ok c =>
        simp only
        split
        · next reply hEnding =>
          rw [label_withSchedule]
          exact hNone
        · next e hEnding => exact hOne (.rejected line row.command e) rfl
        · exact hNone

-- ---------------------------------------------------------------------------
-- Rows one after the other
-- ---------------------------------------------------------------------------

/-- Nothing is done any more once a fault has ended a replay. -/
theorem runFrom_of_fault (hFault : s.fault ≠ none) (line : Nat) (rows : List (Option Row)) :
    s.runFrom env timeout line rows = s := by
  induction rows generalizing line with
  | nil => rfl
  | cons row? rest ih =>
    rw [runFrom, next_of_fault hFault]
    exact ih (line + 1)

/-- Going through rows adds notes with the lines of those rows. -/
theorem runFrom_skipped (env : Surroundings) (timeout : Nat) (s : State) (line : Nat)
    (rows : List (Option Row)) :
    ∃ added, (s.runFrom env timeout line rows).skipped = s.skipped ++ added ∧
      ∀ why ∈ added, line ≤ why.line := by
  induction rows generalizing s line with
  | nil => exact ⟨[], (List.append_nil _).symm, by rintro _ ⟨⟩⟩
  | cons row? rest ih =>
    obtain ⟨first, hFirst, hLine⟩ := next_skipped env timeout s line row?
    obtain ⟨later, hLater, hLines⟩ := ih (s.next env timeout line row?) (line + 1)
    refine ⟨first ++ later, ?_, fun why hMem => ?_⟩
    · rw [runFrom, hLater, hFirst, List.append_assoc]
    · rcases List.mem_append.mp hMem with hNow | hThen
      · exact Nat.le_of_eq (hLine why hNow).symm
      · exact Nat.le_of_succ_le (hLines why hThen)

/-- A replay over an idle ledger ends before its time only at the limit of instants. -/
theorem runFrom_fault (hIdle : s.schedule.ledger.Idle expiry) (hGoing : s.fault = none)
    (line : Nat) (rows : List (Option Row)) (hFault : (s.runFrom env timeout line rows).fault ≠ none) :
    Instant.limit ≤ expiry := by
  induction rows generalizing s line with
  | nil => exact absurd hGoing hFault
  | cons row? rest ih =>
    rw [runFrom] at hFault
    cases passes_next hIdle hGoing env timeout line row? with
    -- an idle ledger is left, so the row after this one is as good a start
    | skipped why hLine hSkipped hLabels hWallets hIdle' hGoing' => exact ih hIdle' hGoing' _ hFault
    | carriedOut row c reply hRow hCommand hSkipped hLabels hLeaves hIdle' hGoing' =>
      exact ih hIdle' hGoing' _ hFault
    | faulted hBeyond => exact hBeyond

/-! ## The notes -/

theorem skips_iff : s.skips line = true ↔ ∃ why ∈ s.skipped, why.line = line := by
  simp [skips]

theorem carriedOut_cons (s : State) (line : Nat) (row? : Option Row) (rest : List (Option Row)) :
    s.carriedOut line (row? :: rest) =
      (if s.skips line then [] else row?.toList) ++ s.carriedOut (line + 1) rest := by
  unfold carriedOut
  rw [List.zipIdx_cons, List.filterMap_cons]
  by_cases hSkips : s.skips line = true
  · simp only [hSkips, if_true, List.nil_append]
  · simp only [if_neg hSkips]
    cases row? <;> rfl

/-- A row that left a note counts as skipped in the end. -/
theorem skips_of_noted {why : Skip} (hMem : why ∈ s.skipped) (hLine : why.line = line)
    (later : Nat) (rows : List (Option Row)) :
    (s.runFrom env timeout later rows).skips line = true := by
  obtain ⟨added, hAdded, -⟩ := runFrom_skipped env timeout s later rows
  rw [skips_iff, hAdded]
  exact ⟨why, List.mem_append_left _ hMem, hLine⟩

/-- A row that left no note does not count as skipped in the end. -/
theorem skips_eq_false (hPast : ∀ why ∈ s.skipped, why.line < line) (env : Surroundings)
    (timeout : Nat) (rows : List (Option Row)) :
    (s.runFrom env timeout (line + 1) rows).skips line = false := by
  obtain ⟨added, hAdded, hLines⟩ := runFrom_skipped env timeout s (line + 1) rows
  rw [← Bool.not_eq_true, skips_iff, hAdded]
  rintro ⟨why, hMem, hLine⟩
  rcases List.mem_append.mp hMem with hOld | hNew
  · have hBefore := hPast why hOld
    omega
  · have hAfter := hLines why hNew
    omega

end State

end Purse.Replay
