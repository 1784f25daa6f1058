import Purse.Proofs.Crowd.Owners
import Purse.Proofs.Crowd.TransferVerdict
import Purse.Proofs.Id.Canonical
import Purse.Proofs.Text.Blank

/-!
# Who a text names

A user id has many spellings, of which one is canonical: four layouts, in which letters may be small or
capital. A transfer compares its two users before anything else about them is looked at. The comparison
has to see through all spellings, and has to make sense for texts that are no ids at all. It does, as
what a text is read as depends on the trimmed text alone: texts name one user if they stand for one
identity, which is the id where there is one and the trimmed text elsewhere.

## Definitions

* `UserId.Spells`: a text is a spelling of an id.
* `identity`: what a text stands for among users.

## Results

* `UserId.parse?_eq_some_iff`: the texts that are read as an id are its spellings.
* `UserId.parse?_text`: an id is read back from its canonical text.
* `sameUser_iff_identity`: texts name one user if they stand for one identity.
* `sameUser_sees_through_spellings`: what follows for texts, ids and transfers.
-/

namespace Purse

namespace UserId

open Positional

variable {text : String} {id : UserId} {c : Char} {cs : List Char} {d : Nat} {ds : List Nat}

-- ---------------------------------------------------------------------------
-- What is read
-- ---------------------------------------------------------------------------

/-- A text spells an id: but for the case of letters, it has the digits of the id in one of the accepted
layouts. -/
def Spells (text : String) (id : UserId) : Prop :=
  ∃ layout ∈ Layout.accepted,
    text.toList.map Char.toLower = Layout.write layout (digits 16 32 id.val)

instance (text : String) (id : UserId) : Decidable (Spells text id) :=
  inferInstanceAs (Decidable (∃ layout ∈ Layout.accepted, _))

/-- A character is read as the digit that its small letter stands for. -/
theorem digit?_eq_some_iff : digit? c = some d ↔ d < 16 ∧ c.toLower = charOf alphabet d :=
  digitOf?_eq_some_iff (by decide)

namespace Layout

/-- How many digits a layout has places for. -/
def room (layout : Layout) : Nat := layout.count .digit

theorem read_digit_eq_some_iff {layout : Layout} {c : Char} :
    read (.digit :: layout) (c :: cs) = some ds ↔
      ∃ d es, digit? c = some d ∧ layout.read cs = some es ∧ ds = d :: es := by
  constructor
  · intro hRead
    obtain ⟨d, hFirst, hRest⟩ := Option.bind_eq_some_iff.mp hRead
    obtain ⟨es, hOthers, hDone⟩ := Option.bind_eq_some_iff.mp hRest
    exact ⟨d, es, hFirst, hOthers, (Option.some.inj hDone).symm⟩
  · rintro ⟨d, es, hFirst, hOthers, rfl⟩
    rw [read, hFirst, hOthers]
    rfl

/-- The digits that a text is read as in a layout fill it, and writing them there gives the text in small
letters. -/
theorem read_eq_some_iff (layout : Layout) : layout.read cs = some ds ↔
    (∀ d ∈ ds, d < 16) ∧ ds.length = layout.room ∧ cs.map Char.toLower = layout.write ds := by
  induction layout generalizing cs ds with
  | nil =>
    cases cs with
    | nil =>
      rw [read, Option.some.injEq]
      constructor
      · rintro rfl
        exact ⟨by rintro _ ⟨⟩, rfl, rfl⟩
      · rintro ⟨-, hLength, -⟩
        exact (List.length_eq_zero_iff.mp hLength).symm
    | cons c cs => simp [read, write]
  | cons place layout ih =>
    cases cs with
    | nil => cases place <;> cases ds <;> simp [read, write]
    | cons c cs =>
      cases place with
      | literal l =>
        have hRoom : room (.literal l :: layout) = room layout := by simp [room]
        rw [read, hRoom, write, List.map_cons, List.cons.injEq]
        by_cases hSame : c.toLower = l
        · simp [hSame, ih]
        · simp [hSame]
      | digit =>
        have hRoom : room (.digit :: layout) = room layout + 1 := by simp [room]
        rw [read_digit_eq_some_iff, hRoom]
        cases ds with
        | nil => simp
        | cons d ds =>
          rw [write, List.map_cons, List.cons.injEq, List.length_cons, Nat.succ_inj,
            List.forall_mem_cons]
          constructor
          · rintro ⟨_, _, hFirst, hOthers, hDone⟩
            cases hDone
            obtain ⟨hLess, hLower⟩ := digit?_eq_some_iff.mp hFirst
            obtain ⟨hDigits, hLength, hSame⟩ := ih.mp hOthers
            exact ⟨⟨hLess, hDigits⟩, hLength, hLower, hSame⟩
          · rintro ⟨⟨hLess, hDigits⟩, hLength, hLower, hSame⟩
            exact ⟨d, ds, digit?_eq_some_iff.mpr ⟨hLess, hLower⟩, ih.mpr ⟨hDigits, hLength, hSame⟩, rfl⟩

theorem length_write (layout : Layout) (ds : List Nat) :
    (layout.write ds).length = layout.length := by
  induction layout generalizing ds with
  | nil => rfl
  | cons place layout ih =>
    cases place with
    | literal l => rw [write, List.length_cons, ih, List.length_cons]
    | digit => cases ds <;> rw [write, List.length_cons, ih, List.length_cons]

theorem length_of_read {layout : Layout} (hRead : layout.read cs = some ds) :
    cs.length = layout.length := by
  obtain ⟨-, -, hSame⟩ := layout.read_eq_some_iff.mp hRead
  rw [← layout.length_write ds, ← hSame, List.length_map]

/-- Every accepted layout has room for all digits of an id. -/
theorem room_of_accepted : ∀ layout ∈ accepted, room layout = 32 := by decide

/-- Accepted layouts are told apart by their lengths. -/
theorem eq_of_length : ∀ layout ∈ accepted, ∀ other ∈ accepted,
    List.length layout = List.length other → layout = other := by
  decide

/-- A text is read in one accepted layout at most. -/
theorem findSome?_read_eq_some_iff :
    (accepted.findSome? (·.read cs) = some ds) ↔ ∃ layout ∈ accepted, layout.read cs = some ds := by
  constructor
  · exact List.exists_of_findSome?_eq_some
  · rintro ⟨layout, hMem, hRead⟩
    have hSome : (accepted.findSome? (·.read cs)).isSome = true := by
      rw [List.findSome?_isSome_iff]
      exact ⟨layout, hMem, hRead ▸ rfl⟩
    obtain ⟨es, hFound⟩ := Option.isSome_iff_exists.mp hSome
    obtain ⟨other, hMem', hRead'⟩ := List.exists_of_findSome?_eq_some hFound
    have hLength := (length_of_read hRead).symm.trans (length_of_read hRead')
    obtain rfl := eq_of_length layout hMem other hMem' hLength
    rw [hFound, ← hRead', hRead]

end Layout

theorem ofNat_val (id : UserId) : ofNat id.val = id := by
  cases id with
  | mk val hLess => simp only [ofNat, Nat.mod_eq_of_lt hLess]

/-- The digits have room for every id, and for no more. -/
theorem pow_eq_count : Nat.pow 16 32 = count := by decide

/-- The digits of an id. -/
theorem eq_digits_iff (hDigits : ∀ d ∈ ds, d < 16) (hLength : ds.length = 32) :
    ofNat (value 16 ds) = id ↔ ds = digits 16 32 id.val := by
  constructor
  · rintro rfl
    have hRoom := value_lt hDigits
    have hWritten := digits_value hDigits
    rw [hLength] at hRoom hWritten
    rw [pow_eq_count] at hRoom
    show ds = digits 16 32 (value 16 ds % count)
    rw [Nat.mod_eq_of_lt hRoom, hWritten]
  · intro hSame
    rw [hSame, value_digits, pow_eq_count, Nat.mod_eq_of_lt id.val_lt, ofNat_val]

/-- The texts that are read as an id are its spellings. -/
theorem parse?_eq_some_iff : parse? text = some id ↔ Spells text id := by
  unfold parse?
  rw [Option.map_eq_some_iff]
  simp only [Layout.findSome?_read_eq_some_iff, Layout.read_eq_some_iff]
  constructor
  · rintro ⟨ds, ⟨layout, hMem, hDigits, hLength, hSame⟩, hId⟩
    rw [Layout.room_of_accepted layout hMem] at hLength
    exact ⟨layout, hMem, (eq_digits_iff hDigits hLength).mp hId ▸ hSame⟩
  · rintro ⟨layout, hMem, hSame⟩
    have hDigits : ∀ d ∈ digits 16 32 id.val, d < 16 := fun d hDigit =>
      lt_of_mem_digits (by decide) hDigit
    have hLength := length_digits 16 32 id.val
    exact ⟨_, ⟨layout, hMem, hDigits, hLength.trans (Layout.room_of_accepted layout hMem).symm,
      hSame⟩, (eq_digits_iff hDigits hLength).mpr rfl⟩

-- ---------------------------------------------------------------------------
-- What is written
-- ---------------------------------------------------------------------------

theorem toLower_charOf : ∀ d < 16, (charOf alphabet d).toLower = charOf alphabet d := by decide

/-- A place at which no capital letter is written. -/
def Place.isSmall : Place → Bool
  | digit => true
  | literal c => c.toLower == c

theorem isSmall_of_accepted : ∀ layout ∈ Layout.accepted, ∀ place ∈ layout,
    place.isSmall = true := by
  decide

theorem toLower_write {layout : Layout} (hSmall : ∀ place ∈ layout, place.isSmall = true)
    (hDigits : ∀ d ∈ ds, d < 16) : (layout.write ds).map Char.toLower = layout.write ds := by
  induction layout generalizing ds with
  | nil => rfl
  | cons place layout ih =>
    obtain ⟨hFirst, hRest⟩ := List.forall_mem_cons.mp hSmall
    cases place with
    | literal l => rw [Layout.write, List.map_cons, eq_of_beq hFirst, ih hRest hDigits]
    | digit =>
      cases ds with
      | nil =>
        rw [Layout.write, List.map_cons, toLower_charOf 0 (by decide), ih hRest (by rintro _ ⟨⟩)]
      | cons d ds =>
        obtain ⟨hLess, hDigits'⟩ := List.forall_mem_cons.mp hDigits
        rw [Layout.write, List.map_cons, toLower_charOf d hLess, ih hRest hDigits']

/-- The canonical text of an id is one of its spellings. -/
theorem spells_text (id : UserId) : Spells id.text id := by
  have hMem : Layout.hyphenated ∈ Layout.accepted :=
    List.mem_cons_of_mem _ List.mem_cons_self
  refine ⟨Layout.hyphenated, hMem, ?_⟩
  rw [UserId.text, String.toList_ofList]
  exact toLower_write (isSmall_of_accepted _ hMem) fun d hDigit =>
    lt_of_mem_digits (by decide) hDigit

/-- An id is read back from its canonical text. -/
theorem parse?_text (id : UserId) : parse? id.text = some id :=
  parse?_eq_some_iff.mpr id.spells_text

/-- The texts that name somebody are the spellings of ids that belong to somebody, with blanks around
them or without. -/
theorem parseTrimmed?_eq_some_iff :
    parseTrimmed? text = some id ↔ Spells (trim text) id ∧ id.isNil = false := by
  unfold parseTrimmed?
  rw [Option.filter_eq_some_iff, parse?_eq_some_iff, Bool.not_eq_true']

end UserId

open UserId

-- ---------------------------------------------------------------------------
-- Who is named
-- ---------------------------------------------------------------------------

variable {a b : String} {x y : UserId}

/-- What a text stands for among users: the id that it spells, or else the text without the blanks around
it. -/
def identity (text : String) : UserId ⊕ String :=
  match parseTrimmed? text with
  | some id => .inl id
  | none => .inr (trim text)

theorem identity_of_trim (hSame : trim a = trim b) : identity a = identity b := by
  unfold identity parseTrimmed?
  rw [hSame]

/-- Two texts name one user if they stand for one identity. A text that spells an id is never compared as
a text with one that spells none, or no id: trimmed to the same, both would spell it. -/
theorem sameUser_iff_identity : sameUser a b = true ↔ identity a = identity b := by
  rw [sameUser_iff]
  constructor
  · rintro (⟨hSome, hSame⟩ | hSame)
    · unfold identity
      rw [← hSame]
      cases hA : parseTrimmed? a with
      | none => exact absurd hA hSome
      | some x => rfl
    · exact identity_of_trim hSame
  · intro hSame
    unfold identity at hSame
    unfold NameOneUser
    cases hA : parseTrimmed? a with
    | none =>
      cases hB : parseTrimmed? b with
      | none =>
        rw [hA, hB] at hSame
        exact Or.inr (Sum.inr.inj hSame)
      | some y =>
        rw [hA, hB] at hSame
        cases hSame
    | some x =>
      cases hB : parseTrimmed? b with
      | none =>
        rw [hA, hB] at hSame
        cases hSame
      | some y =>
        rw [hA, hB] at hSame
        rw [Sum.inl.inj hSame]
        exact Or.inl ⟨Option.some_ne_none y, rfl⟩

/-- To name one user is an equivalence among texts, as it is to stand for one identity. -/
theorem equivalence_sameUser : Equivalence fun a b : String => sameUser a b = true := by
  have hSame : (fun a b : String => sameUser a b = true) = fun a b => identity a = identity b := by
    funext a b
    exact propext sameUser_iff_identity
  rw [hSame]
  exact eq_equivalence.comap identity

theorem sameUser_congr {a' b' : String} (hA : trim a = trim a') (hB : trim b = trim b') :
    sameUser a b = sameUser a' b' := by
  rw [Bool.eq_iff_iff, sameUser_iff_identity, sameUser_iff_identity, identity_of_trim hA,
    identity_of_trim hB]

theorem sameUser_iff_eq (hA : parseTrimmed? a = some x) (hB : parseTrimmed? b = some y) :
    sameUser a b = true ↔ x = y := by
  rw [sameUser_iff_identity]
  unfold identity
  rw [hA, hB]
  exact Sum.inl_injective.eq_iff

/-- The users of a transfer are the ones that its texts name. -/
theorem Transfer.users_of_legs? {r : Transfer} {legs : Legs} (hLegs : r.legs? = some legs) :
    parseTrimmed? r.senderId = some legs.sender.user ∧
      parseTrimmed? r.receiverId = some legs.receiver.user := by
  unfold legs? at hLegs
  split at hLegs
  · next hSender hReceiver _ _ =>
    cases hLegs
    exact ⟨hSender, hReceiver⟩
  · cases hLegs

/-- To name one user is an equivalence among all texts, and blanks around either text make no difference
to it. Texts that spell ids, in whichever of the accepted ways, name one user if and only if they spell
one id. So a transfer that passes its checks is between different users; and there is no request whose
texts name different users while its parties, taken from the same texts later on, are one. -/
theorem sameUser_sees_through_spellings :
    Equivalence (fun a b : String => sameUser a b = true) ∧
    (∀ a b before after : String, AllBlank before → AllBlank after →
      sameUser (before ++ a ++ after) b = sameUser a b ∧
        sameUser a (before ++ b ++ after) = sameUser a b) ∧
    (∀ (text : String) (id : UserId),
      parseTrimmed? text = some id ↔ Spells (trim text) id ∧ id.isNil = false) ∧
    (∀ (a b : String) (x y : UserId), parseTrimmed? a = some x → parseTrimmed? b = some y →
      (sameUser a b = true ↔ x = y)) ∧
    (∀ (r : Transfer) (legs : Legs), r.check = .ok legs →
      parseTrimmed? r.senderId = some legs.sender.user ∧
        parseTrimmed? r.receiverId = some legs.receiver.user ∧
        legs.sender.user ≠ legs.receiver.user) ∧
    ¬ ∃ (r : Transfer) (legs : Legs), sameUser r.senderId r.receiverId = false ∧
      r.legs? = some legs ∧ legs.sender.user = legs.receiver.user := by
  refine ⟨equivalence_sameUser, ?_, fun text id => parseTrimmed?_eq_some_iff,
    fun a b x y => sameUser_iff_eq, ?_, ?_⟩
  · intro a b before after hBefore hAfter
    exact ⟨sameUser_congr (trim_append_blanks hBefore hAfter a) rfl,
      sameUser_congr rfl (trim_append_blanks hBefore hAfter b)⟩
  · intro r legs hCheck
    obtain ⟨hSender, hReceiver, -⟩ := Transfer.legs_of_check hCheck
    exact ⟨hSender, hReceiver, (Transfer.check_ok hCheck).users⟩
  · rintro ⟨r, legs, hOther, hLegs, hUsers⟩
    obtain ⟨hSender, hReceiver⟩ := Transfer.users_of_legs? hLegs
    rw [(sameUser_iff_eq hSender hReceiver).mpr hUsers] at hOther
    cases hOther

/-- The urn of user 171 in capital letters and the bare digits in small ones are one user, with blanks
around the digits as well. From the urn to the braced id of user 172, a transfer passes its checks. -/
theorem urn_names_bare_digits :
    let urn := "URN:UUID:00000000-0000-0000-0000-0000000000AB"
    let bare := "000000000000000000000000000000ab"
    let braced := "\x7b00000000-0000-0000-0000-0000000000ac\x7d"
    sameUser urn bare = true ∧ sameUser urn ("\t" ++ bare ++ "  ") = true ∧
      ∃ legs, Transfer.check ⟨urn, (WalletId.ofNat 1).text, braced, (WalletId.ofNat 2).text,
        Crowd.coins 1⟩ = .ok legs ∧ legs.sender.user ≠ legs.receiver.user := by
  intro urn bare braced
  obtain ⟨-, hBlanks, hSpelled, hOne, hChecked, -⟩ := sameUser_sees_through_spellings
  have hUrn : parseTrimmed? urn = some (.ofNat 171) :=
    (hSpelled _ _).mpr ⟨by decide +kernel, by decide⟩
  have hBare : parseTrimmed? bare = some (.ofNat 171) :=
    (hSpelled _ _).mpr ⟨by decide +kernel, by decide⟩
  have hCheck : Transfer.check ⟨urn, (WalletId.ofNat 1).text, braced, (WalletId.ofNat 2).text,
      Crowd.coins 1⟩ = .ok ⟨⟨.ofNat 171, .ofNat 1⟩, ⟨.ofNat 172, .ofNat 2⟩, Crowd.coins 1⟩ := by
    decide +kernel
  have hSame : sameUser urn bare = true := (hOne _ _ _ _ hUrn hBare).mpr rfl
  exact ⟨hSame, ((hBlanks _ _ _ _ (by decide) (by decide)).2).trans hSame, _, hCheck,
    (hChecked _ _ hCheck).2.2⟩

end Purse
