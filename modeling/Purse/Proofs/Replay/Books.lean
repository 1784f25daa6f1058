import Purse.Replay.Report
import Purse.Proofs.Crowd.Conservation
import Purse.Proofs.Decimal.Text
import Purse.Proofs.Id.Wallet
import Purse.Proofs.Replay.Rows

/-!
# The books of a replay

A row that makes a wallet puts nothing into it, a transfer moves what it takes, and a row that is
skipped leaves every balance. So all the money that a replay has at its end has come in by top-ups. As
long as no label is given twice, the labels stand for the wallets one to one, and the report leaves none
of them out: what it lists adds up to what was topped up.

## Definitions

* `Command.AddsExactly`: no balance that a command changes has to be rounded.
* `State.AddsExactly`: nor has any balance in a replay.
* `State.Labelled`: the labels stand for the wallets, one to one.

## Results

* `State.enters_carriedOut`, `State.enters_runFrom`: one row and all rows, by what they make and bring.
* `State.Labelled.exists_balances`: the report of such a replay.
* `books_balance`: a replay from an empty ledger on.
-/

namespace Purse

open Store Crowd

variable {wallet? wallet?' : WalletId → Option Wallet}

-- ---------------------------------------------------------------------------
-- Exact sums
-- ---------------------------------------------------------------------------

/-- The balance of a wallet, if there is such a wallet and such a balance, is the exact sum once the amount
has been added. -/
def AddsExactly (wallet? : WalletId → Option Wallet) (id : WalletId) (amount : Decimal) : Prop :=
  ∀ w ∈ wallet? id, ∀ sum ∈ w.balance.add? amount, sum.units = w.balance.units + amount.units

/-- No balance that the command changes has to be rounded. -/
def Command.AddsExactly (wallet? : WalletId → Option Wallet) : Command → Prop
  | topup r => ∀ id ∈ r.check.toOption, Purse.AddsExactly wallet? id r.amount
  | transfer r => ∀ legs ∈ r.check.toOption,
    Purse.AddsExactly wallet? legs.sender.wallet legs.amount.neg ∧
      Purse.AddsExactly wallet? legs.receiver.wallet legs.amount
  | createWallet _ | wallet _ | userWallets _ => True

instance (id : WalletId) (amount : Decimal) : Decidable (AddsExactly wallet? id amount) := by
  unfold AddsExactly
  exact inferInstance

instance : (c : Command) → Decidable (c.AddsExactly wallet?)
  | .topup r => inferInstanceAs (Decidable (∀ id ∈ r.check.toOption, _))
  | .transfer r => inferInstanceAs (Decidable (∀ legs ∈ r.check.toOption, _))
  | .createWallet _ | .wallet _ | .userWallets _ => isTrue trivial

/-- An adjusted balance that is not rounded. -/
theorem AddsExactly.units_eq {id : WalletId} {w w' : Wallet} {amount : Decimal} {now : Timestamp}
    (hExact : AddsExactly wallet? id amount) (hWallet : wallet? id = some w)
    (hAdjust : w.adjust amount now = .ok w') :
    w'.balance.units = w.balance.units + amount.units :=
  hExact w hWallet w'.balance (Wallet.adjust_ok hAdjust).2.1

theorem totalUnits_congr {s s' : Store} (hWallets : s'.wallet? = s.wallet?) :
    s'.totalUnits = s.totalUnits := by
  rw [totalUnits_of_isSome (s := s) fun x => by rw [hWallets], hWallets, ← totalUnits_eq]

/-- A top-up that is not rounded adds its amount to the total. -/
theorem totalUnits_topup {s s' : Store} {r : Topup}
    (hDoes : (Job.topup (some r)).Does s.wallet? s'.wallet?)
    (hExact : (Command.topup r).AddsExactly s.wallet?) :
    s'.totalUnits = s.totalUnits + r.amount.units := by
  have hIds := hDoes.isSome_eq
  obtain ⟨r', id, w, w', now, hSome, -, hCheck, hWallet, hAdjust, hNow⟩ := hDoes
  obtain rfl := Option.some.inj hSome
  have hChecked : id ∈ r.check.toOption := by
    rw [hCheck]
    rfl
  have hUnits := (hExact id hChecked).units_eq hWallet hAdjust
  have hMem : id ∈ s.rows.keys := mem_keys_iff.mpr (by rw [hWallet]; rfl)
  have hNodup : s.rows.keys.Nodup := s.rows.nodup
  rw [totalUnits_of_isSome hIds, hNow, exactSum_update_wallet hNodup hMem hWallet,
    ← totalUnits_eq, hUnits]
  omega

/-- A transfer that is not rounded leaves the total. -/
theorem totalUnits_transfer {s s' : Store} {r : Transfer}
    (hDoes : (Job.transfer (some r)).Does s.wallet? s'.wallet?)
    (hExact : (Command.transfer r).AddsExactly s.wallet?) : s'.totalUnits = s.totalUnits := by
  obtain ⟨r₁, legs₁, hSome₁, hCheck₁, -, -, -, -, hTotal⟩ := Job.books_of_does hDoes
  obtain ⟨r', legs, sender, receiver, sender', receiver', now, now', hSome, hCheck, hReady, hDebit,
    hCredit, -⟩ := hDoes
  obtain rfl := Option.some.inj hSome
  obtain rfl := Option.some.inj hSome₁
  obtain rfl := Except.ok.inj (hCheck.symm.trans hCheck₁)
  have hChecked : legs ∈ r.check.toOption := by
    rw [hCheck]
    rfl
  obtain ⟨hSenderExact, hReceiverExact⟩ := hExact legs hChecked
  have hSender : s.wallet? legs.sender.wallet = some sender := hReady.debtor.committed
  have hReceiver : s.wallet? legs.receiver.wallet = some receiver := hReady.creditor.committed
  -- both sums are what the balances are afterwards
  refine hTotal ⟨sender'.balance, ?_⟩ ⟨receiver'.balance, ?_⟩
  · rw [hSenderExact.units_eq hSender hDebit, unitsOf_of_wallet? hSender, Decimal.units_neg]
    rfl
  · rw [hReceiverExact.units_eq hReceiver hCredit, unitsOf_of_wallet? hReceiver]

namespace Replay

-- ---------------------------------------------------------------------------
-- What rows make and bring
-- ---------------------------------------------------------------------------

/-- Whether a row makes a wallet. -/
def Row.makes (row : Row) : Bool := row.command.map Char.toLower == "create"

/-- The amount that a row tops up, if that is what it does. -/
def Row.brings? (row : Row) : Option Decimal :=
  if row.command.map Char.toLower = "topup" then row.amount else none

/-- The exact sum of some decimals. -/
def sumOf (ds : List Decimal) : Int := exactSum (ds.map Decimal.units)

/-- The labels that some rows give to the wallets they make. -/
def labelsOf (rows : List Row) : List String := (rows.filter Row.makes).map Row.wallet

/-- The amounts that some rows top up. -/
def amountsOf (rows : List Row) : List Decimal := rows.filterMap Row.brings?

theorem labelsOf_append (rows others : List Row) :
    labelsOf (rows ++ others) = labelsOf rows ++ labelsOf others := by
  rw [labelsOf, List.filter_append, List.map_append]
  rfl

theorem amountsOf_append (rows others : List Row) :
    amountsOf (rows ++ others) = amountsOf rows ++ amountsOf others :=
  List.filterMap_append ..

theorem sumOf_append (ds others : List Decimal) : sumOf (ds ++ others) = sumOf ds + sumOf others := by
  induction ds with
  | nil => exact (Int.zero_add _).symm
  | cons d ds ih =>
    show d.units + sumOf (ds ++ others) = d.units + sumOf ds + sumOf others
    rw [ih, Int.add_assoc]

namespace State

variable {env : Surroundings} {timeout : Nat} {expiry : Instant} {s s' s'' : State} {line : Nat}
  {row : Row} {c : Command} {reply : Reply}

/-- The commands of rows, by what the rows make and bring. -/
theorem command_eq_ok (hCommand : s.command row = .ok c) :
    (row.makes = true ∧ row.brings? = none ∧ ∃ userId, c = .createWallet userId) ∨
    (row.makes = false ∧ ∃ r, row.brings? = some r.amount ∧ c = .topup r) ∨
    (row.makes = false ∧ row.brings? = none ∧ ∃ r, c = .transfer r) := by
  unfold command at hCommand
  unfold Row.makes Row.brings?
  split at hCommand
  · next hKind =>
    cases hCommand
    exact Or.inl ⟨by simp [hKind], by simp [hKind], _, rfl⟩
  · next hKind hAmount =>
    cases hCommand
    exact Or.inr (Or.inl ⟨by simp [hKind], _, by simp [hKind, hAmount], rfl⟩)
  · cases hCommand
  · next hKind hAmount =>
    cases hCommand
    exact Or.inr (Or.inr ⟨by simp [hKind], by simp [hKind], _, rfl⟩)
  · cases hCommand
  · cases hCommand

/-- The exact sum of all balances. -/
def totalUnits (s : State) : Int := s.schedule.ledger.store.totalUnits

/-- The labels stand for the wallets, one to one. -/
def Labelled (s : State) : Prop :=
  (s.labels.values.map Prod.fst).Perm (s.schedule.ledger.store.rows.keys.map WalletId.text)

theorem Labelled.of_isSome (hLabelled : s.Labelled) (hLabels : s'.labels = s.labels)
    (hIds : ∀ x, (s'.wallet? x).isSome = (s.wallet? x).isSome) : s'.Labelled := by
  unfold Labelled
  rw [hLabels]
  exact hLabelled.trans ((keys_perm_of_isSome hIds).map WalletId.text).symm

/-- Between two states, some rows have made the wallets and brought the money that they say. -/
structure Enters (s : State) (rows : List Row) (s' : State) : Prop where
  labelled : s'.Labelled
  keys_eq : s'.labels.keys = s.labels.keys ++ labelsOf rows
  total_eq : s'.totalUnits = s.totalUnits + sumOf (amountsOf rows)

theorem Enters.refl (hLabelled : s.Labelled) : s.Enters [] s :=
  ⟨hLabelled, (List.append_nil _).symm, (Int.add_zero _).symm⟩

theorem Enters.trans {rows others : List Row} (hFirst : s.Enters rows s')
    (hSecond : s'.Enters others s'') : s.Enters (rows ++ others) s'' := by
  refine ⟨hSecond.labelled, ?_, ?_⟩
  · rw [hSecond.keys_eq, hFirst.keys_eq, labelsOf_append, List.append_assoc]
  · rw [hSecond.total_eq, hFirst.total_eq, amountsOf_append, sumOf_append, Int.add_assoc]

theorem enters_skipped (hLabelled : s.Labelled) (hLabels : s'.labels = s.labels)
    (hWallets : s'.wallet? = s.wallet?) : s.Enters [] s' := by
  refine ⟨hLabelled.of_isSome hLabels fun x => by rw [hWallets], ?_, ?_⟩
  · rw [hLabels]
    exact (List.append_nil _).symm
  · exact (totalUnits_congr hWallets).trans (Int.add_zero _).symm

/-- A row that makes a wallet without money, under a label of its own. -/
theorem enters_made {w : Wallet} (hLabelled : s.Labelled) (hMakes : row.makes = true)
    (hBrings : row.brings? = none)
    (hLabels : s'.labels = s.labels.put row.wallet (w.id.text, w.userId.text))
    (hFresh : row.wallet ∉ s.labels.keys) (hZero : w.balance = .zero)
    (hNone : s.wallet? w.id = none)
    (hWallets : s'.wallet? = Function.update s.wallet? w.id (some w)) : s.Enters [row] s' := by
  have hLabel : labelsOf [row] = [row.wallet] := by simp [labelsOf, hMakes]
  have hAmount : amountsOf [row] = [] := by simp [amountsOf, hBrings]
  refine ⟨?_, ?_, ?_⟩
  · unfold Labelled
    rw [hLabels, Table.values_put hFresh, List.map_append]
    refine (List.perm_append_singleton w.id.text _).trans ?_
    refine (List.Perm.cons _ hLabelled).trans ?_
    exact ((keys_perm_of_new hNone hWallets).map WalletId.text).symm
  · rw [hLabels, hLabel]
    exact Table.keys_put hFresh _
  · have hTotal : s'.totalUnits = w.balance.units + s.totalUnits :=
      totalUnits_of_new hNone hWallets
    rw [hTotal, hAmount, hZero, show Decimal.zero.units = 0 by decide]
    exact Int.add_comm _ _

/-- A row that makes no wallet; the total has grown by what the row brings. -/
theorem enters_moved (hLabelled : s.Labelled) (hMakes : row.makes = false)
    (hLabels : s'.labels = s.labels)
    (hIds : ∀ x, (s'.wallet? x).isSome = (s.wallet? x).isSome)
    (hTotal : s'.totalUnits = s.totalUnits + sumOf (amountsOf [row])) : s.Enters [row] s' := by
  have hLabel : labelsOf [row] = [] := by simp [labelsOf, hMakes]
  refine ⟨hLabelled.of_isSome hLabels hIds, ?_, hTotal⟩
  rw [hLabels, hLabel, List.append_nil]

/-- A row that is carried out makes the wallet and brings the money that it says. -/
theorem enters_carriedOut (hLabelled : s.Labelled) (hCommand : s.command row = .ok c)
    (hLabels : s'.labels = (s.label row reply).labels)
    (hLeaves : c.Leaves s.wallet? s'.wallet? (.ok reply)) (hExact : c.AddsExactly s.wallet?)
    (hNew : ∀ label ∈ labelsOf [row], label ∉ s.labels.keys) : s.Enters [row] s' := by
  obtain ⟨hMakes, hBrings, userId, rfl⟩ | ⟨hMakes, r, hBrings, rfl⟩ | ⟨hMakes, hBrings, r, rfl⟩ :=
    command_eq_ok hCommand
  · obtain ⟨w, rfl, hZero, hNone, hWallets⟩ := hLeaves
    have hFresh := hNew row.wallet (by simp [labelsOf, hMakes])
    exact enters_made hLabelled hMakes hBrings hLabels hFresh hZero hNone hWallets
  · -- money for a wallet that is there
    obtain ⟨rfl, hDoes⟩ := hLeaves
    refine enters_moved hLabelled hMakes hLabels hDoes.isSome_eq ?_
    rw [show amountsOf [row] = [r.amount] by simp [amountsOf, hBrings]]
    exact (totalUnits_topup hDoes hExact).trans
      (congrArg (s.totalUnits + ·) (Int.add_zero r.amount.units).symm)
  · -- money that changes its place
    obtain ⟨rfl, hDoes⟩ := hLeaves
    refine enters_moved hLabelled hMakes hLabels hDoes.isSome_eq ?_
    rw [show amountsOf [row] = [] by simp [amountsOf, hBrings]]
    exact (totalUnits_transfer hDoes hExact).trans (Int.add_zero s.totalUnits).symm

-- ---------------------------------------------------------------------------
-- All rows
-- ---------------------------------------------------------------------------

/-- No balance is rounded by a row that is carried out. -/
def AddsExactly (env : Surroundings) (timeout : Nat) (s : State) (line : Nat)
    (rows : List (Option Row)) : Prop :=
  ∀ n row c, rows[n]? = some (some row) →
    (s.runFrom env timeout line rows).skips (line + n) = false →
    (s.runFrom env timeout line (rows.take n)).command row = .ok c →
    c.AddsExactly (s.runFrom env timeout line (rows.take n)).wallet?

theorem AddsExactly.tail {row? : Option Row} {rest : List (Option Row)}
    (hExact : s.AddsExactly env timeout line (row? :: rest)) :
    (s.next env timeout line row?).AddsExactly env timeout (line + 1) rest := by
  intro n row c hRow hSkips hCommand
  rw [Nat.add_right_comm] at hSkips
  exact hExact (n + 1) row c hRow hSkips hCommand

/-- Rows that are gone through make the wallets and bring the money that they say, those of them that
are carried out. -/
theorem enters_runFrom {rows : List (Option Row)} (hIdle : s.schedule.ledger.Idle expiry)
    (hLabelled : s.Labelled) (hPast : ∀ why ∈ s.skipped, why.line < line)
    (hDone : (s.runFrom env timeout line rows).fault = none)
    (hExact : s.AddsExactly env timeout line rows)
    (hLabels : (s.labels.keys ++
      labelsOf ((s.runFrom env timeout line rows).carriedOut line rows)).Nodup) :
    s.Enters ((s.runFrom env timeout line rows).carriedOut line rows)
      (s.runFrom env timeout line rows) := by
  induction rows generalizing s line with
  | nil => exact .refl hLabelled
  | cons row? rest ih =>
    have hGoing : s.fault = none := by
      by_contra hFault
      rw [runFrom_of_fault hFault] at hDone
      exact hFault hDone
    have hTail := hExact.tail
    rw [runFrom] at hDone
    rw [carriedOut_cons, runFrom] at hLabels ⊢
    cases passes_next hIdle hGoing env timeout line row? with
    | skipped why hLine hSkipped hSame hWallets hIdle' hGoing' =>
      have hNoted : why ∈ (s.next env timeout line row?).skipped := by
        rw [hSkipped]
        exact List.mem_append_right _ (List.mem_singleton_self why)
      rw [if_pos (skips_of_noted hNoted hLine (line + 1) rest)] at hLabels ⊢
      have hFirst := enters_skipped hLabelled hSame hWallets
      refine hFirst.trans (ih hIdle' hFirst.labelled ?_ hDone hTail ?_)
      · rw [hSkipped]
        intro other hMem
        rcases List.mem_append.mp hMem with hOld | hNew
        · exact Nat.lt_succ_of_lt (hPast other hOld)
        · rw [List.mem_singleton.mp hNew, hLine]
          exact Nat.lt_succ_self line
      · rw [hSame]
        exact hLabels
    | carriedOut row c reply hRow hCommand hSkipped hNow hLeaves hIdle' hGoing' =>
      subst hRow
      have hPast' : ∀ why ∈ (s.next env timeout line (some row)).skipped, why.line < line := by
        rw [hSkipped]
        exact hPast
      have hKept := skips_eq_false hPast' env timeout rest
      rw [if_neg (ne_true_of_eq_false hKept), Option.toList_some] at hLabels ⊢
      rw [labelsOf_append, ← List.append_assoc] at hLabels
      -- the row's own label is none of those before
      have hNew : ∀ label ∈ labelsOf [row], label ∉ s.labels.keys := fun label hMem hOld =>
        (List.nodup_append.mp (List.nodup_append.mp hLabels).1).2.2 label hOld label hMem rfl
      have hFirst := enters_carriedOut hLabelled hCommand hNow hLeaves
        (hExact 0 row c rfl hKept hCommand) hNew
      refine hFirst.trans (ih hIdle' hFirst.labelled ?_ hDone hTail ?_)
      · exact fun why hMem => Nat.lt_succ_of_lt (hPast' why hMem)
      · rw [hFirst.keys_eq]
        exact hLabels
    | faulted hBeyond hFault =>
      rw [runFrom_of_fault hFault] at hDone
      exact absurd hDone hFault

-- ---------------------------------------------------------------------------
-- The report
-- ---------------------------------------------------------------------------

/-- The balance of the wallet that an id is the text of. -/
def balanceOf (s : State) (id : String) : Decimal :=
  (((WalletId.parseTrimmed? id).bind s.wallet?).map Wallet.balance).getD .zero

theorem Labelled.exists_wallet (hLabelled : s.Labelled) {e : String × String × String}
    (hMem : e ∈ s.labels.entries) : ∃ id w, e.2.1 = id.text ∧ s.wallet? id = some w := by
  have hListed : e.2.1 ∈ s.labels.values.map Prod.fst :=
    List.mem_map.mpr ⟨e.2, List.mem_map.mpr ⟨e, hMem, rfl⟩, rfl⟩
  obtain ⟨id, hKey, hText⟩ := List.mem_map.mp (hLabelled.mem_iff.mp hListed)
  obtain ⟨w, hWallet⟩ := Option.isSome_iff_exists.mp (mem_keys_iff.mp hKey)
  exact ⟨id, w, hText.symm, hWallet⟩

/-- The line of a label, with the balance of its wallet. -/
theorem Labelled.reportRow?_eq (hLabelled : s.Labelled) {e : String × String × String}
    (hMem : e ∈ s.labels.entries) :
    reportRow? s.schedule.ledger.store e = some [e.1, e.2.2, (s.balanceOf e.2.1).text] := by
  obtain ⟨id, w, hText, hWallet⟩ := hLabelled.exists_wallet hMem
  obtain ⟨label, text, user⟩ := e
  obtain rfl : text = id.text := hText
  have hStored : s.schedule.ledger.store.wallet? id = some w := hWallet
  simp only [balanceOf, reportRow?, WalletId.parseTrimmed?_text, Option.bind_some, hWallet, hStored,
    Option.map_some, Option.getD_some]
  rfl

/-- No line is left out of the report. -/
theorem Labelled.report_eq (hLabelled : s.Labelled) :
    s.report = reportHeader :: (Labels.sorted s.labels).map fun e =>
      [e.1, e.2.2, (s.balanceOf e.2.1).text] := by
  unfold report
  refine congrArg (reportHeader :: ·) ?_
  rw [← List.filterMap_eq_map]
  refine List.filterMap_congr fun e hMem => ?_
  exact hLabelled.reportRow?_eq (List.mem_mergeSort.mp hMem)

/-- The balances of the labels are those of the wallets. -/
theorem Labelled.sumOf_balances (hLabelled : s.Labelled) :
    sumOf (s.labels.entries.map fun e => s.balanceOf e.2.1) = s.totalUnits := by
  have hTexts : s.labels.entries.map (fun e => s.balanceOf e.2.1) =
      (s.labels.values.map Prod.fst).map s.balanceOf := by
    simp only [Table.values, List.map_map, Function.comp_def]
  have hUnits : ∀ id : WalletId, (s.balanceOf id.text).units = unitsOf s.wallet? id := by
    intro id
    unfold balanceOf unitsOf
    rw [WalletId.parseTrimmed?_text, Option.bind_some]
    cases s.wallet? id with
    | none => decide
    | some w => rfl
  unfold sumOf
  rw [hTexts, exactSum_perm ((hLabelled.map s.balanceOf).map Decimal.units), List.map_map,
    List.map_map]
  refine Eq.trans ?_ (totalUnits_eq s.schedule.ledger.store).symm
  exact congrArg exactSum (List.map_congr_left fun id _ => hUnits id)

end State

/-- The balance in a line of a report, as it is read. -/
def balance? (fields : List String) : Option Decimal := fields[2]?.bind Decimal.parse?

theorem balance?_text (label user : String) (d : Decimal) :
    balance? [label, user, d.text] = some d.plain := by
  simp only [balance?, List.getElem?_cons_succ, List.getElem?_cons_zero, Option.bind_some,
    Decimal.parse_text]

/-- A report has a line for every label, and what it lists is the sum of all balances. -/
theorem State.Labelled.exists_balances {s : State} (hLabelled : s.Labelled) :
    ∃ lines balances, s.report = reportHeader :: lines ∧
      (lines.map List.head?).Perm (s.labels.keys.map some) ∧
      lines.mapM balance? = some balances ∧ sumOf balances = s.totalUnits := by
  have hSorted : (Labels.sorted s.labels).Perm s.labels.entries := List.mergeSort_perm _ _
  refine ⟨_, (Labels.sorted s.labels).map fun e => (s.balanceOf e.2.1).plain, hLabelled.report_eq,
    ?_, ?_, ?_⟩
  · rw [List.map_map, Table.keys, List.map_map]
    exact hSorted.map fun e => some e.1
  · -- every balance is read back from its text
    induction Labels.sorted s.labels with
    | nil => rfl
    | cons e es ih =>
      rw [List.map_cons, List.mapM_cons, balance?_text, ih]
      rfl
  · rw [← hLabelled.sumOf_balances]
    unfold sumOf
    rw [List.map_map, List.map_map]
    refine Eq.trans (exactSum_perm (hSorted.map _)) ?_
    exact congrArg exactSum (List.map_congr_left fun e _ => Decimal.units_plain _)

/-- A ledger without wallets is idle. -/
theorem idle_empty (lifetime : Nat) : (Ledger.empty lifetime).Idle lifetime :=
  ⟨resting_empty, ⟨fun _ => rfl, rfl⟩, Nat.zero_add lifetime⟩

/-- The books of a replay balance. From an empty ledger on, if all wallets that are made get labels of
their own and no balance has to be rounded, the replay comes to its end, unless claims last longer than
there are instants. Its report then has one line for every row that has made a wallet, under the label
of that row, and the balances that it lists add up to exactly what has been topped up by the rows that
were neither malformed nor rejected. -/
theorem books_balance (env : Surroundings) (timeout lifetime : Nat) (bytes : List UInt8)
    (hExact : (State.start (Schedule.empty lifetime)).AddsExactly env timeout 0 (rows bytes))
    (hLabels : (labelsOf ((run env timeout (Schedule.empty lifetime) bytes).carriedOut 0
      (rows bytes))).Nodup) :
    let final := run env timeout (Schedule.empty lifetime) bytes
    let accepted := final.carriedOut 0 (rows bytes)
    (final.fault = none ∨ Instant.limit ≤ lifetime) ∧
      (final.fault = none → ∃ lines balances, final.report = reportHeader :: lines ∧
        lines.length = (accepted.filter Row.makes).length ∧
        (lines.map List.head?).Perm ((labelsOf accepted).map some) ∧
        lines.mapM balance? = some balances ∧
        sumOf balances = sumOf (amountsOf accepted)) := by
  intro final accepted
  have hIdle : (State.start (Schedule.empty lifetime)).schedule.ledger.Idle lifetime :=
    idle_empty lifetime
  refine ⟨?_, fun hDone => ?_⟩
  · by_cases hFault : final.fault = none
    · exact Or.inl hFault
    · exact Or.inr (State.runFrom_fault hIdle rfl 0 (rows bytes) hFault)
  · have hEnters : (State.start (Schedule.empty lifetime)).Enters accepted final :=
      State.enters_runFrom hIdle (List.Perm.refl []) (by rintro _ ⟨⟩) hDone hExact hLabels
    obtain ⟨lines, balances, hReport, hHeads, hRead, hSum⟩ := hEnters.labelled.exists_balances
    have hKeys : final.labels.keys = labelsOf accepted := hEnters.keys_eq
    rw [hKeys] at hHeads
    refine ⟨lines, balances, hReport, ?_, hHeads, hRead, ?_⟩
    · have hLength := hHeads.length_eq
      rwa [List.length_map, List.length_map, labelsOf, List.length_map] at hLength
    · rw [hSum, hEnters.total_eq]
      exact Int.zero_add _

/-! ## A day's file -/

/-- The bytes of a text in ASCII. -/
def ascii (text : String) : List UInt8 := text.toList.map fun c => UInt8.ofNat c.toNat

/-- The file of some records: their fields between commas, each record on a line. -/
def sheet (records : List (List String)) : List UInt8 :=
  records.flatMap fun fields => ((fields.map ascii).intersperse [Csv.comma]).flatten ++ [10]

def ada : String := "00000000-0000-0000-0000-000000000001"

def bob : String := "00000000-0000-0000-0000-000000000002"

/-- Two wallets, a top-up that comes twice, a transfer, one that is not covered, an unknown command and a
line that breaks off. -/
def busyDay : List UInt8 := sheet [
  ["type", "user", "wallet", "to_user", "to_wallet", "amount", "key"],
  ["create", ada, "a", "", "", "", ""],
  ["create", bob, "b", "", "", "", ""],
  ["topup", ada, "a", "", "", "10.50", "first"],
  ["topup", ada, "a", "", "", "10.50", "first"],
  ["transfer", ada, "a", bob, "b", "4.25", ""],
  ["transfer", bob, "b", ada, "a", "100", ""],
  ["audit", bob, "b", "", "", "1", ""],
  ["create"]]

/-- The replay of the day up to a row. -/
def busyDayUpTo (n : Nat) : State :=
  (State.start (Schedule.empty 60000)).runFrom stillness 0 0 ((rows busyDay).take n)

/-- The replay of the day. -/
abbrev busyDayEnd : State := run stillness 0 (Schedule.empty 60000) busyDay

/-- The one top-up that counts on that day. -/
def tenFifty : Decimal := { negative := false, mantissa := 1050, scale := 2 }

/-- Four rows are skipped, and the balances of the two wallets add up to the one top-up. -/
theorem busy_day_balances :
    busyDayEnd.skipped.map Skip.line = [3, 5, 6, 7] ∧ ∃ lines balances,
      busyDayEnd.report = reportHeader :: lines ∧ lines.length = 2 ∧
        lines.mapM balance? = some balances ∧ sumOf balances = tenFifty.units := by
  have hFacts : (busyDayEnd.skipped.map Skip.line = [3, 5, 6, 7] ∧
        busyDayEnd.fault.isNone = true) ∧
      (((busyDayEnd.carriedOut 0 (rows busyDay)).filter Row.makes).length = 2 ∧
        (labelsOf (busyDayEnd.carriedOut 0 (rows busyDay))).Nodup ∧
        amountsOf (busyDayEnd.carriedOut 0 (rows busyDay)) = [tenFifty]) ∧
      ∀ n < (rows busyDay).length, ∀ row? ∈ (rows busyDay)[n]?, ∀ row ∈ row?,
        busyDayEnd.skips n = false → ∀ c ∈ ((busyDayUpTo n).command row).toOption,
          c.AddsExactly (busyDayUpTo n).wallet? := by
    decide +kernel
  obtain ⟨⟨hSkipped, hFault⟩, ⟨hMade, hLabels, hBrought⟩, hRows⟩ := hFacts
  have hExact : (State.start (Schedule.empty 60000)).AddsExactly stillness 0 0 (rows busyDay) := by
    intro n row c hRow hSkips hCommand
    have hLess : n < (rows busyDay).length := (List.getElem?_eq_some_iff.mp hRow).1
    rw [Nat.zero_add] at hSkips
    have hNext : (busyDayUpTo n).command row = .ok c := hCommand
    exact hRows n hLess (some row) hRow row rfl hSkips c (by rw [hNext]; rfl)
  obtain ⟨lines, balances, hReport, hLength, -, hRead, hSum⟩ :=
    (books_balance stillness 0 60000 busyDay hExact hLabels).2 (Option.isNone_iff_eq_none.mp hFault)
  refine ⟨hSkipped, lines, balances, hReport, hLength.trans hMade, hRead, ?_⟩
  rw [hSum, hBrought]
  exact Int.add_zero _

end Replay

end Purse
