import Purse.Proofs.Csv.ReadBack
import Purse.Proofs.Decimal.Scientific
import Purse.Proofs.Id.User
import Purse.Proofs.Replay.Bindings

/-!
# The report, read back

A report is read back with the reader that replays use, field by field. Fields are trimmed when they are
read; but labels have been trimmed when they were given, and the texts of ids and decimals hold no blanks.

## Definitions

* `State.PlainLabels`: labels are trimmed, and each has the texts of a wallet id and of an owner.
* `State.reported`: what stands in the lines of a report.

## Results

* `State.plainLabels_run`: replays give such labels only.
* `State.PlainLabels.mem_reported_iff`, `State.pairwise_reported`: the lines of a report.
* `State.PlainLabels.read_output`: the output is read as the lines of the report.
* `report_is_read_back`: labels, lines and balances, taken together.
-/

namespace Purse

-- ---------------------------------------------------------------------------
-- Texts without blanks
-- ---------------------------------------------------------------------------

namespace UserId

theorem mem_write {layout : Layout} {ds : List Nat} {c : Char} (hMem : c ∈ Layout.write layout ds) :
    (∃ d, c = Positional.charOf alphabet d) ∨ .literal c ∈ layout := by
  induction layout generalizing ds with
  | nil => cases hMem
  | cons place layout ih =>
    have hRest : ∀ {es : List Nat}, c ∈ Layout.write layout es →
        (∃ d, c = Positional.charOf alphabet d) ∨ .literal c ∈ place :: layout := fun hIn =>
      (ih hIn).imp_right (List.mem_cons_of_mem place)
    cases place with
    | literal l =>
      rcases List.mem_cons.mp hMem with rfl | hIn
      · exact Or.inr List.mem_cons_self
      · exact hRest hIn
    | digit =>
      cases ds with
      | nil =>
        rcases List.mem_cons.mp hMem with rfl | hIn
        · exact Or.inl ⟨0, rfl⟩
        · exact hRest hIn
      | cons d ds =>
        rcases List.mem_cons.mp hMem with rfl | hIn
        · exact Or.inl ⟨d, rfl⟩
        · exact hRest hIn

/-- There is nothing to be trimmed about the text of an id. -/
theorem trim_text (id : UserId) : trim id.text = id.text := by
  have hLiterals : ∀ place ∈ Layout.hyphenated, ∀ c, place = .literal c → isBlank c = false := by
    have hHyphen : ∀ place ∈ Layout.hyphenated, place = .digit ∨ place = .literal '-' := by decide
    intro place hMem c hPlace
    rcases hHyphen place hMem with rfl | rfl
    · cases hPlace
    · obtain rfl := Place.literal.inj hPlace
      decide
  have hChars : ∀ c ∈ id.chars, isBlank c = false := by
    intro c hMem
    rcases mem_write hMem with ⟨d, rfl⟩ | hLiteral
    · exact Positional.isBlank_charOf (by decide) d
    · exact hLiterals _ hLiteral c rfl
  rw [trim, text, String.toList_ofList, trimmed_of_forall hChars]

end UserId

namespace Decimal

/-- There is nothing to be trimmed about the text of a decimal. -/
theorem trim_text (d : Decimal) : trim d.text = d.text := by
  have hDigits : ∀ ds : List Nat,
      ∀ c ∈ ds.map (Positional.charOf Positional.decimalDigits), isBlank c = false := by
    intro ds c hMem
    obtain ⟨x, -, rfl⟩ := List.mem_map.mp hMem
    exact Positional.isBlank_charOf (by decide) x
  have hChars : ∀ c ∈ d.chars, isBlank c = false := by
    intro c hMem
    unfold chars at hMem
    rcases List.mem_append.mp hMem with hFirst | hFraction
    · rcases List.mem_append.mp hFirst with hSign | hWhole
      · split at hSign
        · obtain rfl := List.mem_singleton.mp hSign
          decide
        · cases hSign
      · exact hDigits _ c hWhole
    · split at hFraction
      · cases hFraction
      · rcases List.mem_cons.mp hFraction with rfl | hField
        · decide
        · exact hDigits _ c hField
  rw [trim, text, String.toList_ofList, trimmed_of_forall hChars]

end Decimal

namespace Replay

-- ---------------------------------------------------------------------------
-- Labels
-- ---------------------------------------------------------------------------

theorem trim_of_texts? {record : Csv.Record} {fields : List String}
    (hTexts : texts? record = some fields) : ∀ field ∈ fields, trim field = field := by
  obtain ⟨texts, -, rfl⟩ := Option.map_eq_some_iff.mp hTexts
  intro field hMem
  obtain ⟨text, -, rfl⟩ := List.mem_map.mp hMem
  exact trim_trim text

/-- The cells of a record are fields of it, or the one for a missing amount. -/
theorem mem_of_pair {columns : List (Option Column)} {fields : List String}
    {cells : List (Column × String)} (hPair : pair columns fields = some cells) :
    ∀ cell ∈ cells, cell.2 ∈ fields ∨ cell.2 = "" := by
  fun_induction pair columns fields generalizing cells with
  | case1 fields =>
    cases hPair
    rintro _ ⟨⟩
  | case2 c cs f fs ih =>
    obtain ⟨rest, hRest, rfl⟩ := Option.map_eq_some_iff.mp hPair
    refine List.forall_mem_cons.mpr ⟨Or.inl List.mem_cons_self, fun cell hMem => ?_⟩
    exact (ih hRest cell hMem).imp_left (List.mem_cons_of_mem f)
  | case3 cs f fs ih =>
    exact fun cell hMem => (ih hPair cell hMem).imp_left (List.mem_cons_of_mem f)
  | case4 cs ih =>
    obtain ⟨rest, hRest, rfl⟩ := Option.map_eq_some_iff.mp hPair
    exact List.forall_mem_cons.mpr ⟨Or.inr rfl, ih hRest⟩
  | case5 => cases hPair

/-- A wallet field is trimmed. -/
theorem Row.trim_wallet {layout : Layout} {record : Csv.Record} {row : Row}
    (hRow : Row.ofRecord? layout record = some row) : trim row.wallet = row.wallet := by
  have hCells : ∀ {cells : List (Column × String)}, (∀ cell ∈ cells, trim cell.2 = cell.2) →
      Row.ofCells? cells = some row → trim row.wallet = row.wallet := by
    intro cells hTrimmed hOf
    obtain ⟨command, -, hOf⟩ := Option.bind_eq_some_iff.mp hOf
    obtain ⟨user, -, hOf⟩ := Option.bind_eq_some_iff.mp hOf
    obtain ⟨wallet, hWallet, hOf⟩ := Option.bind_eq_some_iff.mp hOf
    cases hOf
    obtain ⟨before, after, rfl, -⟩ := List.lookup_eq_some_iff.mp hWallet
    exact hTrimmed (.wallet, wallet) (List.mem_append_right before List.mem_cons_self)
  obtain ⟨fields, hTexts, hRow⟩ := Option.bind_eq_some_iff.mp hRow
  have hFields := trim_of_texts? hTexts
  cases layout with
  | ordered =>
    exact hCells (fun cell hMem => hFields cell.2 (List.of_mem_zip hMem).2) hRow
  | named columns =>
    simp only at hRow
    split at hRow
    · obtain ⟨cells, hPair, hRow⟩ := Option.bind_eq_some_iff.mp hRow
      refine hCells (fun cell hMem => ?_) hRow
      rcases mem_of_pair hPair cell hMem with hField | hEmpty
      · exact hFields cell.2 hField
      · rw [hEmpty]
        decide
    · cases hRow

theorem trim_wallet_of_mem {bytes : List UInt8} {row : Row} (hMem : some row ∈ rows bytes) :
    trim row.wallet = row.wallet := by
  unfold rows at hMem
  split at hMem
  · cases hMem
  · obtain ⟨record, -, hRow⟩ := List.mem_map.mp hMem
    exact Row.trim_wallet hRow

namespace State

variable {s : State}

/-- Labels as replays give them: they are trimmed, and each has the texts of a wallet id and of an
owner. -/
def PlainLabels (s : State) : Prop :=
  ∀ label texts, s.labels.get? label = some texts →
    trim label = label ∧ ∃ (id : WalletId) (owner : UserId), texts = (id.text, owner.text)

theorem PlainLabels.next (hLabels : s.PlainLabels) (env : Surroundings) (timeout line : Nat)
    {row? : Option Row} (hRow : ∀ row ∈ row?, trim row.wallet = row.wallet) :
    (s.next env timeout line row?).PlainLabels := by
  by_cases hFault : s.fault = none
  · cases row? with
    | none =>
      rw [next_malformed hFault]
      exact hLabels
    | some row =>
      rw [next_row hFault]
      cases hCommand : s.command row with
      | error e =>
        unfold apply
        rw [hCommand]
        exact hLabels
      | ok c =>
        obtain ⟨schedule, ending, others, hExecute⟩ : ∃ schedule ending others,
            s.schedule.execute env c.program (some (s.schedule.ledger.now + timeout)) =
              (schedule, ending, others) := ⟨_, _, _, rfl⟩
        rw [apply_of_execute hCommand hExecute]
        intro label texts hFound
        rw [labels_ended] at hFound
        cases hMade : ending.made? with
        | none =>
          rw [hMade] at hFound
          exact hLabels label texts hFound
        | some w =>
          rw [hMade, Table.get?_put] at hFound
          split at hFound
          · next hSame =>
            obtain rfl := hSame
            exact ⟨hRow row rfl, w.id, w.userId, (Option.some.inj hFound).symm⟩
          · exact hLabels label texts hFound
  · rw [next_of_fault hFault]
    exact hLabels

theorem PlainLabels.runFrom (hLabels : s.PlainLabels) (env : Surroundings) (timeout line : Nat)
    {rows : List (Option Row)} (hRows : ∀ row, some row ∈ rows → trim row.wallet = row.wallet) :
    (s.runFrom env timeout line rows).PlainLabels := by
  induction rows generalizing s line with
  | nil => exact hLabels
  | cons row? rest ih =>
    refine ih (hLabels.next env timeout line ?_) (line + 1) fun row hMem =>
      hRows row (List.mem_cons_of_mem row? hMem)
    rintro row rfl
    exact hRows row List.mem_cons_self

theorem plainLabels_run (env : Surroundings) (timeout : Nat) (schedule : Schedule)
    (bytes : List UInt8) : (run env timeout schedule bytes).PlainLabels :=
  PlainLabels.runFrom (by rintro _ _ ⟨⟩) env timeout 0 fun _ hMem => trim_wallet_of_mem hMem

-- ---------------------------------------------------------------------------
-- Lines
-- ---------------------------------------------------------------------------

/-- What stands in the line of a label: its owner, and its wallet, if that is stored. -/
def reported? (s : State) (e : String × String × String) : Option (String × UserId × Wallet) := do
  let id ← WalletId.parseTrimmed? e.2.1
  let owner ← UserId.parse? e.2.2
  let w ← s.wallet? id
  return (e.1, owner, w)

/-- The fields of a line. -/
def lineOf (e : String × UserId × Wallet) : List String := [e.1, e.2.1.text, e.2.2.balance.text]

theorem reported?_text (s : State) (label : String) (id : WalletId) (owner : UserId) :
    s.reported? (label, id.text, owner.text) = (s.wallet? id).map (label, owner, ·) := by
  unfold reported?
  rw [WalletId.parseTrimmed?_text, UserId.parse?_text, Option.map_eq_bind]
  rfl

theorem reportRow?_text (s : State) (label : String) (id : WalletId) (owner : UserId) :
    reportRow? s.schedule.ledger.store (label, id.text, owner.text) =
      (s.reported? (label, id.text, owner.text)).map lineOf := by
  have hWallet : s.schedule.ledger.store.wallet? id = s.wallet? id := rfl
  rw [reportRow?_eq, WalletId.parseTrimmed?_text, Option.bind_some, reported?_text, hWallet]
  cases s.wallet? id <;> rfl

/-- What stands in the lines of a report. -/
def reported (s : State) : List (String × UserId × Wallet) :=
  (Labels.sorted s.labels).filterMap s.reported?

theorem get?_of_mem_sorted {e : String × String × String} (hMem : e ∈ Labels.sorted s.labels) :
    s.labels.get? e.1 = some e.2 :=
  Table.lookup_of_mem s.labels.nodup (List.mem_mergeSort.mp hMem)

theorem mem_sorted_of_get? {label : String} {texts : String × String}
    (hFound : s.labels.get? label = some texts) : (label, texts) ∈ Labels.sorted s.labels := by
  have hKey : label ∈ s.labels.keys := Table.mem_keys_iff.mpr (Option.isSome_of_eq_some hFound)
  obtain ⟨e, hMem, rfl⟩ := List.mem_map.mp hKey
  have hSame := Table.lookup_of_mem s.labels.nodup hMem
  obtain rfl := Option.some.inj (hSame.symm.trans hFound)
  exact List.mem_mergeSort.mpr hMem

theorem PlainLabels.report_eq (hLabels : s.PlainLabels) :
    s.report = reportHeader :: s.reported.map lineOf := by
  unfold report reported
  rw [List.map_filterMap]
  refine congrArg (reportHeader :: ·) (List.filterMap_congr fun e hMem => ?_)
  obtain ⟨-, id, owner, hTexts⟩ := hLabels e.1 e.2 (get?_of_mem_sorted hMem)
  obtain ⟨label, texts⟩ := e
  obtain rfl := hTexts
  exact s.reportRow?_text label id owner

/-- There is a line for each label whose wallet is stored. -/
theorem PlainLabels.mem_reported_iff (hLabels : s.PlainLabels) {label : String} {owner : UserId}
    {w : Wallet} : (label, owner, w) ∈ s.reported ↔
      ∃ id : WalletId, s.labels.get? label = some (id.text, owner.text) ∧ s.wallet? id = some w := by
  unfold reported
  rw [List.mem_filterMap]
  constructor
  · rintro ⟨⟨label', texts⟩, hMem, hReported⟩
    have hFound := get?_of_mem_sorted hMem
    obtain ⟨-, id, owner', rfl⟩ := hLabels label' texts hFound
    rw [reported?_text] at hReported
    obtain ⟨w', hWallet, hSame⟩ := Option.map_eq_some_iff.mp hReported
    obtain ⟨hLabel, hOthers⟩ := Prod.mk.inj hSame
    obtain ⟨hOwner, hStored⟩ := Prod.mk.inj hOthers
    rw [← hLabel, ← hOwner, ← hStored]
    exact ⟨id, hFound, hWallet⟩
  · rintro ⟨id, hFound, hWallet⟩
    refine ⟨_, mem_sorted_of_get? hFound, ?_⟩
    rw [reported?_text, hWallet]
    rfl

/-- The lines come in the order of their labels' bytes. -/
theorem pairwise_reported (s : State) :
    s.reported.Pairwise fun x y => bytesOf x.1 < bytesOf y.1 := by
  have hLabel : ∀ {e : String × String × String} {x : String × UserId × Wallet},
      s.reported? e = some x → x.1 = e.1 := by
    intro e x hReported
    obtain ⟨id, -, hRest⟩ := Option.bind_eq_some_iff.mp hReported
    obtain ⟨owner, -, hRest⟩ := Option.bind_eq_some_iff.mp hRest
    obtain ⟨w, -, hRest⟩ := Option.bind_eq_some_iff.mp hRest
    exact congrArg Prod.fst (Option.some.inj hRest).symm
  refine (List.pairwise_map.mp (pairwise_sorted s.labels)).filterMap s.reported? ?_
  intro e e' hLess x hX y hY
  rw [hLabel hX, hLabel hY]
  exact hLess

-- ---------------------------------------------------------------------------
-- Reading
-- ---------------------------------------------------------------------------

theorem texts?_bytesOf {texts : List String} (hTrimmed : ∀ text ∈ texts, trim text = text) :
    texts? (texts.map bytesOf) = some texts := by
  have hRead : (texts.map bytesOf).mapM Csv.Field.text? = some texts := by
    clear hTrimmed
    induction texts with
    | nil => rfl
    | cons text texts ih =>
      rw [List.map_cons, List.mapM_cons, Csv.Field.text?_bytesOf, ih]
      rfl
  unfold texts?
  rw [hRead, Option.map_some, List.map_congr_left hTrimmed, List.map_id']

theorem PlainLabels.trim_report (hLabels : s.PlainLabels) :
    ∀ line ∈ s.report, 2 ≤ line.length ∧ ∀ field ∈ line, trim field = field := by
  rw [hLabels.report_eq]
  refine List.forall_mem_cons.mpr ⟨by decide, fun line hMem => ?_⟩
  obtain ⟨⟨label, owner, w⟩, hReported, rfl⟩ := List.mem_map.mp hMem
  obtain ⟨id, hFound, -⟩ := hLabels.mem_reported_iff.mp hReported
  refine ⟨by simp [lineOf], List.forall_mem_cons.mpr ⟨(hLabels label _ hFound).1, ?_⟩⟩
  exact List.forall_mem_cons.mpr ⟨owner.trim_text, List.forall_mem_singleton.mpr w.balance.trim_text⟩

/-- The output is read as the lines of the report. -/
theorem PlainLabels.read_output (hLabels : s.PlainLabels) :
    (Csv.records (bytesOf s.output)).map texts? = s.report.map some := by
  have hReport := hLabels.trim_report
  have hHead : (bytesOf s.output).head? ≠ some 0xEF := by
    have hBegins : (bytesOf s.output).head? = some 119 := by
      unfold output
      rw [Csv.bytesOf_write]
      rfl
    rw [hBegins]
    decide
  unfold output at hHead ⊢
  rw [Csv.records_write (fun line hMem => (hReport line hMem).1) hHead, List.map_map]
  exact List.map_congr_left fun line hMem => texts?_bytesOf (hReport line hMem).2

/-- After a replay from an empty ledger on, each label has the owner of its wallet. -/
theorem owner_of_run (env : Surroundings) (timeout lifetime : Nat) (bytes : List UInt8)
    {label : String} {id : WalletId} {owner : UserId} {w : Wallet}
    (hFound : (run env timeout (Schedule.empty lifetime) bytes).labels.get? label =
      some (id.text, owner.text))
    (hWallet : (run env timeout (Schedule.empty lifetime) bytes).wallet? id = some w) :
    w.userId = owner := by
  have hBound := bound_runFrom (bound_start lifetime) env timeout 0 (rows bytes)
  obtain ⟨v, hLatest, hTexts⟩ := Option.map_eq_some_iff.mp ((hBound.labels label).symm.trans hFound)
  obtain ⟨hId, hOwner⟩ := Prod.mk.inj hTexts
  obtain rfl := WalletId.text_injective hId
  obtain ⟨w', hStored, hLater⟩ := hBound.exists_later hLatest
  obtain rfl := Option.some.inj (hStored.symm.trans hWallet)
  have hRead := v.userId.parse?_text
  rw [hOwner, UserId.parse?_text] at hRead
  exact hLater.userId_eq.trans (Option.some.inj hRead).symm

end State

/-- Labels are trimmed, and each has the texts of a wallet id and of an owner, the one of its wallet if the
replay is from an empty ledger on. With such labels, whatever they are, the output of a report is read
as its header and one record of three fields for each label whose wallet is stored, in the order of the
labels' bytes: the label, its owner and the balance. The balance is read back with all its places, and
but for the sign of zero it is the one stored. -/
theorem report_is_read_back :
    (∀ env timeout schedule bytes, (run env timeout schedule bytes).PlainLabels) ∧
    (∀ env timeout lifetime bytes label (id : WalletId) (owner : UserId) (w : Wallet),
      let final := run env timeout (Schedule.empty lifetime) bytes
      final.labels.get? label = some (id.text, owner.text) → final.wallet? id = some w →
        w.userId = owner) ∧
    ∀ s : State, s.PlainLabels →
      ∃ lines : List (String × UserId × Wallet),
        (Csv.records (bytesOf s.output)).map texts? =
          some ["wallet", "user", "balance"] ::
            lines.map (fun e => some [e.1, e.2.1.text, e.2.2.balance.text]) ∧
        lines.Pairwise (fun x y => bytesOf x.1 < bytesOf y.1) ∧
        (∀ label owner w, (label, owner, w) ∈ lines ↔
          ∃ id : WalletId, s.labels.get? label = some (id.text, owner.text) ∧
            s.wallet? id = some w) ∧
        ∀ e ∈ lines, ∃ d, Decimal.parse? e.2.2.balance.text = some d ∧
          d.units = e.2.2.balance.units ∧ d.scale = e.2.2.balance.scale ∧
          (d ≠ e.2.2.balance → e.2.2.balance.negative = true ∧ e.2.2.balance.mantissa = 0) := by
  refine ⟨State.plainLabels_run, fun env timeout lifetime bytes label id owner w =>
    State.owner_of_run env timeout lifetime bytes, fun s hLabels => ⟨s.reported, ?_,
    s.pairwise_reported, fun label owner w => hLabels.mem_reported_iff, fun e _ => ?_⟩⟩
  · rw [hLabels.read_output, hLabels.report_eq, List.map_cons, List.map_map]
    rfl
  · generalize e.2.2.balance = balance
    exact ⟨balance.plain, balance.parse_text, balance.units_plain, rfl,
      Decimal.plain_ne_self_iff.mp⟩

/-! ## Labels that need quotes -/

/-- Labels with a comma, with quotes and a line end of either kind, and one that is empty. -/
def quotedLabels : List UInt8 := bytesOf (Csv.write [
  ["type", "user", "wallet"],
  ["create", ada, " a,b "],
  ["create", bob, "\"a\"\r\nb"],
  ["create", ada, ""]])

/-- The labels with the numbers of their wallets and owners. -/
def quotedOwners : List (String × Nat × Nat) := [("a,b", 1, 1), ("\"a\"\r\nb", 2, 2), ("", 3, 1)]

/-- They are read back from the report of their replay. -/
theorem quotedLabels_read_back :
    let final := run standstill 0 (Schedule.empty 60000) quotedLabels
    (final.PlainLabels ∧ final.labels.keys = quotedOwners.map Prod.fst) ∧
    ∀ e ∈ quotedOwners, some [e.1, (UserId.ofNat e.2.2).text, Decimal.zero.text] ∈
      (Csv.records (bytesOf final.output)).map texts? := by
  intro final
  obtain ⟨hPlain, -, hRead⟩ := report_is_read_back
  have hFinal : final.PlainLabels := hPlain standstill 0 (Schedule.empty 60000) quotedLabels
  obtain ⟨lines, hLines, -, hMem, -⟩ := hRead final hFinal
  refine ⟨⟨hFinal, by decide +kernel⟩, fun e hOwner => ?_⟩
  have hStored : final.labels.get? e.1 =
        some ((WalletId.ofNat e.2.1).text, (UserId.ofNat e.2.2).text) ∧
      (final.wallet? (.ofNat e.2.1)).map Wallet.balance = some Decimal.zero := by
    revert e
    decide +kernel
  obtain ⟨hFound, hBalance⟩ := hStored
  obtain ⟨w, hWallet, hZero⟩ := Option.map_eq_some_iff.mp hBalance
  rw [hLines, ← hZero]
  exact List.mem_cons_of_mem _
    (List.mem_map.mpr ⟨(e.1, .ofNat e.2.2, w), (hMem _ _ _).mpr ⟨_, hFound, hWallet⟩, rfl⟩)

end Replay

end Purse
