import Purse.Proofs.Crowd.Deadlock
import Purse.Proofs.Crowd.Owners
import Purse.Proofs.Id.Wallet
import Purse.Proofs.Text.ByteOrder
import Purse.Remote.WalletTable

/-!
# The one order of wallet ids

An id has one canonical text and many spellings: the case of letters is free, and so are the two bits by
which the first of 26 digits exceeds 128 bits. The canonical text is a code that keeps the order. So it
makes no difference whether ids are compared as numbers, as transfers and listings in memory do, or by the
bytes of their texts, as a database does; and an id has one place in the order of locking, however it is
spelled.

## Definitions

* `WalletId.Spells`: a text is a spelling of an id.
* `WalletId.IsCanonical`: a text is in the canonical form.

## Results

* `WalletId.parse_eq_ok_iff`: the texts that are read as an id are its spellings.
* `WalletId.isCanonical_iff`: the texts in canonical form are the texts of ids.
* `WalletId.text_keeps_order`: the orders are one.
-/

namespace Purse

namespace Positional

variable {base d : Nat} {ds : List Nat} {alphabet : List Char} {c : Char}

/-- In an alphabet in which no character comes twice, each stands for the digit of its place. -/
theorem digitOf?_eq_some_iff (hNodup : alphabet.Nodup) :
    digitOf? alphabet c = some d ↔ d < alphabet.length ∧ c = charOf alphabet d := by
  have hChar : ∀ hLess : d < alphabet.length, charOf alphabet d = alphabet[d] := by
    intro hLess
    rw [charOf, List.getD_eq_getElem?_getD, List.getElem?_eq_getElem hLess, Option.getD_some]
  constructor
  · intro hDigit
    obtain ⟨hLess, hGet, -⟩ := List.idxOf?_eq_some_iff.mp hDigit
    exact ⟨hLess, hGet.symm.trans (hChar hLess).symm⟩
  · rintro ⟨hLess, rfl⟩
    rw [hChar hLess]
    refine List.idxOf?_eq_some_iff.mpr ⟨hLess, rfl, fun e hBefore hSame => ?_⟩
    exact Nat.ne_of_lt hBefore (hNodup.getElem_inj_iff.mp hSame)

theorem value_cons (base d : Nat) (ds : List Nat) :
    value base (d :: ds) = d * Nat.pow base ds.length + value base ds := by
  induction ds using List.reverseRecOn with
  | nil => simp [value]
  | append_singleton ds e ih =>
    have hPow : Nat.pow base (ds ++ [e]).length = Nat.pow base ds.length * base := by
      rw [List.length_append]
      rfl
    rw [← List.cons_append, value_append_singleton, value_append_singleton, ih, hPow, Nat.add_mul]
    ring

theorem value_lt (hDigits : ∀ e ∈ ds, e < base) : value base ds < Nat.pow base ds.length := by
  induction ds with
  | nil => exact Nat.one_pos
  | cons e ds ih =>
    have hRest := ih fun f hMem => hDigits f (List.mem_cons_of_mem e hMem)
    have hFirst : (e + 1) * Nat.pow base ds.length ≤ base * Nat.pow base ds.length :=
      Nat.mul_le_mul_right _ (hDigits e List.mem_cons_self)
    rw [value_cons, List.length_cons]
    show _ < Nat.pow base ds.length * base
    rw [Nat.mul_comm _ base]
    rw [Nat.add_mul] at hFirst
    omega

/-- The digits that a number was read from are those that it is written with. -/
theorem digits_value (hDigits : ∀ e ∈ ds, e < base) : digits base ds.length (value base ds) = ds := by
  induction ds using List.reverseRecOn with
  | nil => rfl
  | append_singleton ds e ih =>
    have hLast : e < base := hDigits e (List.mem_append_right _ (List.mem_singleton_self e))
    have hBase : 0 < base := Nat.lt_of_le_of_lt (Nat.zero_le e) hLast
    rw [List.length_append, value_append_singleton]
    show digits base (ds.length + 1) _ = _
    rw [digits, Nat.mul_add_mod_self_right, Nat.mod_eq_of_lt hLast, Nat.mul_comm,
      Nat.mul_add_div hBase, Nat.div_eq_of_lt hLast, Nat.add_zero,
      ih fun f hMem => hDigits f (List.mem_append_left _ hMem)]

end Positional

namespace WalletId

open Positional

variable {text : String} {id : WalletId} {c : Char} {cs : List Char} {d : Nat} {ds : List Nat}

-- ---------------------------------------------------------------------------
-- What is read
-- ---------------------------------------------------------------------------

/-- A text spells an id: it is the canonical text but for the case of letters, and the first digit may be
any that leaves the same remainder by eight. -/
def Spells (text : String) (id : WalletId) : Prop :=
  ∃ top < 32, ∃ rest, digits 32 width id.val = top % 8 :: rest ∧
    text.toList.map Char.toUpper = (top :: rest).map (charOf alphabet)

/-- A character is read as the digit that its capital letter stands for. -/
theorem digit?_eq_some_iff : digit? c = some d ↔ d < 32 ∧ c.toUpper = charOf alphabet d :=
  digitOf?_eq_some_iff (by decide)

/-- The characters that stand for a digit take one byte. -/
theorem utf8Size_of_digit? (hDigit : digit? c = some d) : c.utf8Size = 1 := by
  obtain ⟨hLess, hUpper⟩ := digit?_eq_some_iff.mp hDigit
  have hSmall : (charOf alphabet d).val ≤ 127 :=
    Char.utf8Size_eq_one_iff.mp (utf8Size_charOf d hLess)
  rw [← hUpper] at hSmall
  rw [Char.utf8Size_eq_one_iff]
  unfold Char.toUpper at hSmall
  split at hSmall
  · next hLetter => exact UInt32.le_trans hLetter.2 (by decide)
  · exact hSmall

/-- The digits that characters are read as. -/
theorem mapM_digit?_eq_some_iff : cs.mapM digit? = some ds ↔
    (∀ d ∈ ds, d < 32) ∧ cs.map Char.toUpper = ds.map (charOf alphabet) := by
  induction cs generalizing ds with
  | nil =>
    constructor
    · intro hRead
      cases hRead
      exact ⟨by simp, rfl⟩
    · rintro ⟨-, hSame⟩
      rw [List.map_eq_nil_iff.mp hSame.symm]
      rfl
  | cons c cs ih =>
    rw [List.mapM_cons]
    constructor
    · intro hRead
      obtain ⟨d, hFirst, hRest⟩ := Option.bind_eq_some_iff.mp hRead
      obtain ⟨es, hRest', hDone⟩ := Option.bind_eq_some_iff.mp hRest
      cases hDone
      obtain ⟨hLess, hUpper⟩ := digit?_eq_some_iff.mp hFirst
      obtain ⟨hDigits, hSame⟩ := ih.mp hRest'
      refine ⟨List.forall_mem_cons.mpr ⟨hLess, hDigits⟩, ?_⟩
      rw [List.map_cons, List.map_cons, hUpper, hSame]
    · rintro ⟨hDigits, hSame⟩
      cases ds with
      | nil => cases hSame
      | cons d ds =>
        obtain ⟨hLess, hDigits'⟩ := List.forall_mem_cons.mp hDigits
        obtain ⟨hUpper, hSame'⟩ := List.cons.inj hSame
        rw [digit?_eq_some_iff.mpr ⟨hLess, hUpper⟩, ih.mpr ⟨hDigits', hSame'⟩]
        rfl

theorem utf8Len_of_mapM_digit? (hRead : cs.mapM digit? = some ds) :
    String.utf8Len cs = ds.length := by
  induction cs generalizing ds with
  | nil =>
    cases hRead
    rfl
  | cons c cs ih =>
    rw [List.mapM_cons] at hRead
    obtain ⟨d, hFirst, hRest⟩ := Option.bind_eq_some_iff.mp hRead
    obtain ⟨es, hRest', hDone⟩ := Option.bind_eq_some_iff.mp hRest
    cases hDone
    rw [String.utf8Len_cons, ih hRest', utf8Size_of_digit? hFirst]
    rfl

/-- What a first digit has beyond 128 bits is dropped. -/
theorem val_ofNat_value {top : Nat} {rest : List Nat} (hLength : rest.length = 25)
    (hDigits : ∀ d ∈ rest, d < 32) :
    (ofNat (value 32 (top :: rest))).val = value 32 (top % 8 :: rest) := by
  have hRest := value_lt hDigits
  show value 32 (top :: rest) % count = _
  rw [value_cons, value_cons]
  rw [hLength] at hRest ⊢
  have hPow : Nat.pow 32 25 = 1 <<< 125 := by decide
  rw [hPow] at hRest ⊢
  simp only [count, Nat.one_shiftLeft] at *
  omega

theorem digits_ofNat_value {top : Nat} {rest : List Nat} (hLength : rest.length = 25)
    (hDigits : ∀ d ∈ rest, d < 32) :
    digits 32 width (ofNat (value 32 (top :: rest))).val = top % 8 :: rest := by
  have hTop : top % 8 < 32 := Nat.lt_trans (Nat.mod_lt top (by decide)) (by decide)
  have hWritten := digits_value (List.forall_mem_cons.mpr ⟨hTop, hDigits⟩)
  rw [val_ofNat_value hLength hDigits]
  rwa [List.length_cons, hLength] at hWritten

/-- The texts that are read as an id are its spellings. -/
theorem parse_eq_ok_iff : parse text = .ok id ↔ Spells text id := by
  constructor
  · intro hParse
    unfold parse at hParse
    split at hParse
    · cases hParse
    next hSize =>
    split at hParse
    · cases hParse
    next ds hRead =>
    have hLength : ds.length = width := by
      rw [← utf8Len_of_mapM_digit? hRead, ← String.utf8ByteSize_ofList, String.ofList_toList]
      exact not_not.mp hSize
    obtain ⟨hDigits, hSame⟩ := mapM_digit?_eq_some_iff.mp hRead
    cases ds with
    | nil => cases hLength
    | cons top rest =>
      obtain ⟨hTop, hRest⟩ := List.forall_mem_cons.mp hDigits
      refine ⟨top, hTop, rest, ?_, hSame⟩
      rw [← Except.ok.inj hParse]
      exact digits_ofNat_value (Nat.succ.inj hLength) hRest
  · rintro ⟨top, hTop, rest, hDigits, hSame⟩
    have hLength : rest.length = 25 := by
      have hAll := length_digits 32 width id.val
      rw [hDigits] at hAll
      exact Nat.succ.inj hAll
    have hRest : ∀ d ∈ rest, d < 32 := fun d hMem =>
      lt_of_mem_digits (by decide) (hDigits ▸ List.mem_cons_of_mem _ hMem)
    have hRead : text.toList.mapM digit? = some (top :: rest) :=
      mapM_digit?_eq_some_iff.mpr ⟨List.forall_mem_cons.mpr ⟨hTop, hRest⟩, hSame⟩
    have hSize : text.utf8ByteSize = width := by
      rw [← String.ofList_toList (s := text), String.utf8ByteSize_ofList,
        utf8Len_of_mapM_digit? hRead, List.length_cons, hLength]
      rfl
    have hId : ofNat (value 32 (top :: rest)) = id := by
      rw [← ofNat_val (ofNat (value 32 (top :: rest))), val_ofNat_value hLength hRest, ← hDigits,
        value_digits, Nat.mod_eq_of_lt id.val_lt_pow, ofNat_val]
    unfold parse
    rw [if_neg (not_not_intro hSize), hRead]
    exact congrArg Except.ok hId

-- ---------------------------------------------------------------------------
-- What is written
-- ---------------------------------------------------------------------------

/-- The canonical form: 26 digits in capital letters, the first of them below eight. -/
structure IsCanonical (text : String) : Prop where
  length : text.toList.length = width
  digits : ∀ c ∈ text.toList, c ∈ alphabet
  first : ∀ c ∈ text.toList.head?, c ∈ alphabet.take 8

theorem charOf_mem : ∀ d < 32, charOf alphabet d ∈ alphabet := by decide

theorem charOf_mem_take_iff : ∀ d < 32, charOf alphabet d ∈ alphabet.take 8 ↔ d < 8 := by decide

theorem toUpper_of_mem {c : Char} (hMem : c ∈ alphabet) : c.toUpper = c := by
  have hAll : alphabet.all (fun c => c.toUpper == c) = true := by decide
  exact eq_of_beq (List.all_eq_true.mp hAll c hMem)

theorem charOf_idxOf {c : Char} (hMem : c ∈ alphabet) :
    alphabet.idxOf c < 32 ∧ charOf alphabet (alphabet.idxOf c) = c := by
  refine ⟨List.idxOf_lt_length_of_mem hMem, ?_⟩
  have hAll : alphabet.all (fun c => charOf alphabet (alphabet.idxOf c) == c) = true := by decide
  exact eq_of_beq (List.all_eq_true.mp hAll c hMem)

theorem isCanonical_text (id : WalletId) : IsCanonical id.text := by
  obtain ⟨top, -, rest, hDigits, -⟩ := parse_eq_ok_iff.mp id.parse_text
  have hBound : ∀ d ∈ digits 32 width id.val, d < 32 := fun d hMem =>
    lt_of_mem_digits (by decide) hMem
  have hChars : id.text.toList = (digits 32 width id.val).map (charOf alphabet) := by
    rw [text, String.toList_ofList, chars]
  refine ⟨?_, ?_, ?_⟩
  · rw [hChars, List.length_map, length_digits]
  · intro c hMem
    rw [hChars] at hMem
    obtain ⟨d, hDigit, rfl⟩ := List.mem_map.mp hMem
    exact charOf_mem d (hBound d hDigit)
  · intro c hMem
    rw [hChars, hDigits] at hMem
    rw [← Option.some.inj hMem]
    have hFirst := Nat.mod_lt top (y := 8) (by decide)
    exact (charOf_mem_take_iff _ (by omega)).mpr hFirst

/-- A text in canonical form that is read as an id is the text of that id. -/
theorem IsCanonical.eq_text (hCanonical : IsCanonical text) (hParse : parse text = .ok id) :
    text = id.text := by
  obtain ⟨top, hTop, rest, hDigits, hSame⟩ := parse_eq_ok_iff.mp hParse
  -- all letters are capital already
  have hUpper : text.toList.map Char.toUpper = text.toList :=
    (List.map_congr_left fun c hMem => toUpper_of_mem (hCanonical.digits c hMem)).trans
      (List.map_id' _)
  rw [hUpper] at hSame
  have hFirst : top < 8 := by
    refine (charOf_mem_take_iff top hTop).mp (hCanonical.first _ ?_)
    rw [hSame]
    rfl
  rw [WalletId.text, chars, hDigits, Nat.mod_eq_of_lt hFirst, ← hSame, String.ofList_toList]

/-- The texts in canonical form are the texts of ids. -/
theorem isCanonical_iff : IsCanonical text ↔ ∃ id : WalletId, id.text = text := by
  constructor
  · intro hCanonical
    have hDigits : ∀ d ∈ text.toList.map alphabet.idxOf, d < 32 := by
      intro d hMem
      obtain ⟨c, hChar, rfl⟩ := List.mem_map.mp hMem
      exact (charOf_idxOf (hCanonical.digits c hChar)).1
    have hSame : text.toList.map Char.toUpper =
        (text.toList.map alphabet.idxOf).map (charOf alphabet) := by
      rw [List.map_map]
      refine List.map_congr_left fun c hMem => ?_
      rw [toUpper_of_mem (hCanonical.digits c hMem)]
      exact (charOf_idxOf (hCanonical.digits c hMem)).2.symm
    cases hRead : text.toList.map alphabet.idxOf with
    | nil =>
      have hLength := hCanonical.length
      rw [List.map_eq_nil_iff.mp hRead] at hLength
      cases hLength
    | cons top rest =>
      rw [hRead] at hDigits hSame
      obtain ⟨hTop, hRest⟩ := List.forall_mem_cons.mp hDigits
      have hLength : rest.length = 25 := by
        have hAll := congrArg List.length hRead
        rw [List.length_map, hCanonical.length] at hAll
        exact (Nat.succ.inj hAll).symm
      have hParse : parse text = .ok (ofNat (value 32 (top :: rest))) :=
        parse_eq_ok_iff.mpr ⟨top, hTop, rest, digits_ofNat_value hLength hRest, hSame⟩
      exact ⟨_, (hCanonical.eq_text hParse).symm⟩
  · rintro ⟨id, rfl⟩
    exact isCanonical_text id

-- ---------------------------------------------------------------------------
-- One order
-- ---------------------------------------------------------------------------

theorem bytesOf_text_lt {x y : WalletId} : bytesOf x.text < bytesOf y.text ↔ x.val < y.val := by
  rw [bytesOf_lt_bytesOf, ← String.not_le, text_le_text, Nat.not_le]

theorem bytesOf_text_le {x y : WalletId} : bytesOf x.text ≤ bytesOf y.text ↔ x.val ≤ y.val := by
  rw [← List.not_lt, bytesOf_text_lt, Nat.not_lt]

end WalletId

open WalletId

/-- A transfer locks its rows by ascending id. -/
theorem Legs.senderLocksFirst_iff (legs : Legs) :
    legs.senderLocksFirst = true ↔ legs.sender.wallet.val < legs.receiver.wallet.val := by
  unfold senderLocksFirst
  rw [decide_eq_true_iff, ← bytesOf_lt_bytesOf, bytesOf_text_lt]

/-- A list that is sorted by the bytes of texts ascends by them. -/
theorem pairwise_mergeSort_bytes (ids : List WalletId) :
    (ids.mergeSort fun a b => bytesOf a.text ≤ bytesOf b.text).Pairwise
      fun a b => bytesOf a.text ≤ bytesOf b.text := by
  have hSorted := @List.pairwise_mergeSort WalletId
    (fun a b => decide (bytesOf a.text ≤ bytesOf b.text)) ?_ ?_ ids
  · exact hSorted.imp of_decide_eq_true
  · intro a b c hFirst hSecond
    rw [decide_eq_true_iff, bytesOf_text_le] at *
    exact Nat.le_trans hFirst hSecond
  · intro a b
    simp only [bytesOf_text_le, Bool.or_eq_true, decide_eq_true_iff]
    exact Nat.le_total a.val b.val

theorem Legs.perm_rows (legs : Legs) :
    legs.rows.Perm [legs.sender.wallet, legs.receiver.wallet] := by
  unfold rows lockOrder
  split
  · exact List.Perm.refl _
  · exact List.Perm.swap _ _ _

/-- The rows of a transfer are locked in the order of their ids' texts, whichever wallet sends. -/
theorem Legs.rows_eq_of_perm {legs : Legs} {ids : List WalletId}
    (hIds : ids.Perm [legs.sender.wallet, legs.receiver.wallet]) :
    legs.rows = ids.mergeSort fun a b => bytesOf a.text ≤ bytesOf b.text := by
  have hPerm : legs.rows.Perm (ids.mergeSort fun a b => bytesOf a.text ≤ bytesOf b.text) :=
    legs.perm_rows.trans (hIds.symm.trans (List.mergeSort_perm ids _).symm)
  refine hPerm.eq_of_pairwise (fun a b _ _ hLe hGe => text_injective (String.le_antisymm hLe hGe))
    legs.pairwise_rows ((pairwise_mergeSort_bytes ids).imp fun {a b} hLe => ?_)
  exact text_le_text.mpr (bytesOf_text_le.mp hLe)

/-- The wallets of a user are listed in memory by the bytes of their ids' texts. -/
theorem Store.walletsOf_eq (s : Store) (user : UserId) :
    s.walletsOf user = (s.wallets.filter (·.isOwnedBy user)).mergeSort
      fun a b => bytesOf a.id.text ≤ bytesOf b.id.text := by
  unfold walletsOf
  simp only [bytesOf_text_le]

/-- A database lists the wallets of a user in the order in which memory does. -/
theorem Store.list_ofWallets (s : Store) (now : Timestamp) (saved : Option (List Remote.Record))
    (user : UserId) :
    (Remote.WalletTable.mk now (s.wallets.map Remote.Record.ofWallet) saved).list user =
      (s.walletsOf user).map Remote.Record.ofWallet := by
  have hFilter : (s.wallets.map Remote.Record.ofWallet).filter (Remote.WalletTable.belongsTo user) =
      (s.wallets.filter (·.isOwnedBy user)).map Remote.Record.ofWallet := by
    rw [List.filter_map]
    refine congrArg _ (List.filter_congr fun w _ => ?_)
    show (some w.userId == some user && w.deletedAt.isNone) = w.isOwnedBy user
    unfold Wallet.isOwnedBy Wallet.isDeleted
    cases w.deletedAt <;> simp
  unfold Remote.WalletTable.list walletsOf
  rw [hFilter]
  refine (List.map_mergeSort fun a _ b _ => ?_).symm
  show decide (a.id.val ≤ b.id.val) = decide (a.id.text ≤ b.id.text)
  rw [decide_eq_decide, text_le_text]

namespace WalletId

/-- The order of ids by value, of their texts by bytes, of the locks of transfers and of listings is
one; and whatever text is read as an id, the id is written in the canonical form. -/
theorem text_keeps_order (x y : WalletId) :
    parse x.text = .ok x ∧
    (x.val < y.val ↔ bytesOf x.text < bytesOf y.text) ∧
    (∀ legs : Legs, legs.senderLocksFirst = true ↔
      legs.sender.wallet.val < legs.receiver.wallet.val) ∧
    (∀ (s : Store) (user : UserId), s.walletsOf user =
      (s.wallets.filter (·.isOwnedBy user)).mergeSort
        fun a b => bytesOf a.id.text ≤ bytesOf b.id.text) ∧
    (∀ (s : Store) (now : Timestamp) (saved : Option (List Remote.Record)) (user : UserId),
      (Remote.WalletTable.mk now (s.wallets.map Remote.Record.ofWallet) saved).list user =
        (s.walletsOf user).map Remote.Record.ofWallet) ∧
    (∀ text, parse text = .ok x ↔ Spells text x) ∧
    (∀ text, parse text = .ok x → IsCanonical x.text ∧ (IsCanonical text → text = x.text)) ∧
    (∀ (r : Transfer) (legs : Legs), r.check = .ok legs →
      [parseTrimmed? r.senderWalletId, parseTrimmed? r.receiverWalletId].Perm [some x, some y] →
        legs.rows = [x, y].mergeSort fun a b => bytesOf a.text ≤ bytesOf b.text) := by
  refine ⟨x.parse_text, bytesOf_text_lt.symm, fun legs => legs.senderLocksFirst_iff,
    fun s => s.walletsOf_eq, fun s now saved => s.list_ofWallets now saved,
    fun text => parse_eq_ok_iff, ?_, ?_⟩
  · intro text hParse
    exact ⟨isCanonical_text x, fun hCanonical => hCanonical.eq_text hParse⟩
  · intro r legs hCheck hSpelled
    obtain ⟨-, -, hSender, hReceiver, -⟩ := Transfer.legs_of_check hCheck
    rw [hSender, hReceiver] at hSpelled
    refine Legs.rows_eq_of_perm ?_
    have hIds := hSpelled.filterMap id
    exact hIds.symm

/-- The transfer of a coin from wallet 1, in a spelling above the text of wallet 2, to wallet 2. -/
def oddlySpelled : Transfer :=
  ⟨(UserId.ofNat 1).text, "g0000000000000000000000001", (UserId.ofNat 2).text,
    " 00000000000000000000000002 ", Crowd.coins 1⟩

/-- An odd spelling of the smaller id takes the place of that id: its row is locked first. -/
theorem odd_spelling_locked_first :
    bytesOf (ofNat 2).text < bytesOf oddlySpelled.senderWalletId ∧
      IsCanonical (ofNat 1).text ∧ ∃ legs, oddlySpelled.check = .ok legs ∧
      legs.rows = [ofNat 1, ofNat 2] := by
  obtain ⟨-, -, -, -, -, -, hRead, hLocked⟩ := text_keeps_order (.ofNat 1) (.ofNat 2)
  have hCheck : oddlySpelled.check =
      .ok ⟨⟨.ofNat 1, .ofNat 1⟩, ⟨.ofNat 2, .ofNat 2⟩, Crowd.coins 1⟩ := by decide +kernel
  have hParse : parse oddlySpelled.senderWalletId = .ok (.ofNat 1) := by decide +kernel
  have hSpelled : [parseTrimmed? oddlySpelled.senderWalletId,
      parseTrimmed? oddlySpelled.receiverWalletId].Perm [some (.ofNat 1), some (.ofNat 2)] := by
    decide +kernel
  refine ⟨by decide +kernel, (hRead _ hParse).1, _, hCheck, ?_⟩
  exact (hLocked _ _ hCheck hSpelled).trans (List.mergeSort_of_pairwise (by decide +kernel))

end WalletId

end Purse
