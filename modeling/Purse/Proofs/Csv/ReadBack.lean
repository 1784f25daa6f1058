import Purse.Csv.Reader
import Purse.Csv.Writer
import Purse.Proofs.Text.ByteOrder

/-!
# Reading what was written

Records that are written as comma-separated values are read back as they are, field by field and byte by
byte. Of the bytes of a text only those of commas, quotes and line ends mean anything to the reader, and
these occur in no other character. In a field without them the reader passes from byte to byte; in any
other it passes within quotes, where only a quote is to be minded, and each is written twice.

## Results

* `scan_field`: one field, as it is written.
* `scan_record`: one record of two fields or more.
* `records_write`: all records.
-/

namespace Purse

/-- A byte below 128 belongs to one character only, of which it is the code. -/
theorem code_of_mem_encode {c : Char} {b : UInt8} (hMem : b ∈ String.utf8EncodeChar c)
    (hAscii : b.toNat < 128) : c.val.toNat = b.toNat := by
  have hBound := code_lt c
  unfold String.utf8EncodeChar at hMem
  generalize c.val.toNat = v at *
  simp only at hMem
  split_ifs at hMem
  all_goals
    simp only [List.mem_cons, List.not_mem_nil, or_false, ← UInt8.toNat_inj, UInt8.toNat_ofNat'] at hMem
    omega

namespace Csv

variable {place : Place} {field : Field} {record : Record} {bs rest : List UInt8}

/-- A byte that means nothing to the reader outside quotes. -/
def Plain (b : UInt8) : Prop := b ≠ comma ∧ b ≠ quote ∧ isLineEnd b = false

theorem ne_quote_of_mem {c : Char} {b : UInt8} (hChar : c ≠ '"') (hMem : b ∈ String.utf8EncodeChar c) :
    b ≠ quote := by
  rintro rfl
  exact hChar (Char.ext (UInt32.toNat_inj.mp (code_of_mem_encode hMem (by decide))))

theorem plain_of_mem {c : Char} {b : UInt8} (hChar : needsQuotes c = false)
    (hMem : b ∈ String.utf8EncodeChar c) : Plain b := by
  have hOnly : ∀ special : Char, needsQuotes special = true → special.val.toNat < 128 →
      b.toNat ≠ special.val.toNat := by
    intro special hSpecial hAscii hByte
    have hCode := code_of_mem_encode hMem (hByte ▸ hAscii)
    obtain rfl : c = special := Char.ext (UInt32.toNat_inj.mp (hCode.trans hByte))
    exact Bool.false_ne_true (hChar.symm.trans hSpecial)
  refine ⟨?_, ?_, ?_⟩
  · rintro rfl
    exact hOnly ',' rfl (by decide) rfl
  · rintro rfl
    exact hOnly '"' rfl (by decide) rfl
  · by_contra hEnd
    rw [Bool.not_eq_false, isLineEnd, Bool.or_eq_true, beq_iff_eq, beq_iff_eq] at hEnd
    rcases hEnd with rfl | rfl
    · exact hOnly '\n' rfl (by decide) rfl
    · exact hOnly '\r' rfl (by decide) rfl

-- ---------------------------------------------------------------------------
-- From byte to byte
-- ---------------------------------------------------------------------------

theorem scan_plain {b : UInt8} (hPlace : place ≠ .quoted) (hPlain : Plain b) :
    scan place field record (b :: rest) = scan .bare (b :: field) record rest := by
  obtain ⟨hComma, hQuote, hEnd⟩ := hPlain
  rw [scan.eq_4 _ _ _ _ _ hPlace, hEnd, if_neg Bool.false_ne_true, if_neg hComma,
    if_neg fun h => hQuote h.1, if_neg fun h => hQuote h.1]

/-- Plain bytes belong to the field. -/
theorem scan_bare (hPlain : ∀ b ∈ bs, Plain b) :
    scan .bare field record (bs ++ rest) = scan .bare (bs.reverse ++ field) record rest := by
  induction bs generalizing field with
  | nil => rfl
  | cons b bs ih =>
    obtain ⟨hFirst, hRest⟩ := List.forall_mem_cons.mp hPlain
    rw [List.cons_append, scan_plain (by decide) hFirst, ih hRest, List.reverse_cons, List.append_assoc]
    rfl

/-- Within quotes whatever is no quote belongs to the field. -/
theorem scan_within (hQuotes : ∀ b ∈ bs, b ≠ quote) :
    scan .quoted field record (bs ++ rest) = scan .quoted (bs.reverse ++ field) record rest := by
  induction bs generalizing field with
  | nil => rfl
  | cons b bs ih =>
    obtain ⟨hFirst, hRest⟩ := List.forall_mem_cons.mp hQuotes
    rw [List.cons_append, scan, if_neg hFirst, ih hRest, List.reverse_cons, List.append_assoc]
    rfl

/-- A quote that is written twice within quotes belongs to the field once. -/
theorem scan_twice :
    scan .quoted field record (quote :: quote :: rest) = scan .quoted (quote :: field) record rest := by
  rfl

/-- The characters of a field within quotes, up to the closing quote. -/
theorem scan_doubled (cs : List Char) :
    scan .quoted field record ((doubled cs).flatMap String.utf8EncodeChar ++ quote :: rest) =
      scan .closing ((cs.flatMap String.utf8EncodeChar).reverse ++ field) record rest := by
  induction cs generalizing field with
  | nil => rfl
  | cons c cs ih =>
    rw [List.flatMap_cons, List.reverse_append, List.append_assoc, ← ih]
    unfold doubled
    rw [List.flatMap_cons, List.flatMap_append]
    by_cases hChar : c = '"'
    · subst hChar
      exact scan_twice
    · rw [if_neg hChar, List.flatMap_singleton, List.append_assoc,
        scan_within fun b hMem => ne_quote_of_mem hChar hMem]

-- ---------------------------------------------------------------------------
-- Fields
-- ---------------------------------------------------------------------------

/-- A field as it is written: it is read as far as it goes, and what comes behind it is not within
quotes, nor at the beginning of a record unless the field was. -/
theorem scan_field (hPlace : place = .recordStart ∨ place = .fieldStart) (text : String)
    (record : Record) (rest : List UInt8) :
    ∃ behind, behind ≠ .quoted ∧ (behind = .recordStart → place = .recordStart) ∧
      scan place [] record ((fieldChars text).flatMap String.utf8EncodeChar ++ rest) =
        scan behind (bytesOf text).reverse record rest := by
  have hOutside : place ≠ .quoted := by rcases hPlace with rfl | rfl <;> decide
  rw [bytesOf_eq]
  unfold fieldChars
  simp only
  split
  · refine ⟨.closing, by decide, (nomatch ·), ?_⟩
    have hQuote : String.utf8EncodeChar '"' = [quote] := by decide
    have hOpens : ∀ bytes, scan place [] record (quote :: bytes) = scan .quoted [] record bytes := by
      intro bytes
      rcases hPlace with rfl | rfl <;> rfl
    rw [List.flatMap_cons, hQuote, List.flatMap_append, List.flatMap_singleton, hQuote]
    rw [List.append_assoc, List.append_assoc, List.singleton_append, hOpens, List.singleton_append,
      scan_doubled, List.append_nil]
  · next hNone =>
    have hPlain : ∀ b ∈ text.toList.flatMap String.utf8EncodeChar, Plain b := by
      intro b hMem
      obtain ⟨c, hChar, hByte⟩ := List.mem_flatMap.mp hMem
      refine plain_of_mem (Bool.not_eq_true _ ▸ fun hNeeds => hNone ?_) hByte
      exact List.any_eq_true.mpr ⟨c, hChar, hNeeds⟩
    generalize text.toList.flatMap String.utf8EncodeChar = bytes at hPlain ⊢
    cases bytes with
    | nil => exact ⟨place, hOutside, id, rfl⟩
    | cons b bytes =>
      obtain ⟨hFirst, hRest⟩ := List.forall_mem_cons.mp hPlain
      refine ⟨.bare, by decide, (nomatch ·), ?_⟩
      rw [List.cons_append, scan_plain hOutside hFirst, scan_bare hRest, List.reverse_cons]

theorem scan_comma (hPlace : place ≠ .quoted) :
    scan place field record (comma :: rest) = scan .fieldStart [] (field.reverse :: record) rest := by
  cases place <;> first | rfl | exact absurd rfl hPlace

theorem scan_lineFeed (hPlace : place ≠ .quoted) (hStart : place ≠ .recordStart) :
    scan place field record (10 :: rest) =
      (field.reverse :: record).reverse :: scan .recordStart [] [] rest := by
  cases place <;> first | rfl | exact absurd rfl hPlace | exact absurd rfl hStart

-- ---------------------------------------------------------------------------
-- Records
-- ---------------------------------------------------------------------------

/-- The bytes of a record. -/
def recordBytes (texts : List String) : List UInt8 :=
  (recordChars texts).flatMap String.utf8EncodeChar

theorem recordBytes_singleton (text : String) :
    recordBytes [text] = (fieldChars text).flatMap String.utf8EncodeChar ++ [10] := by
  have hEnd : String.utf8EncodeChar '\n' = [10] := by decide
  unfold recordBytes recordChars
  rw [List.map_singleton, List.intercalate_singleton, List.flatMap_append, List.flatMap_singleton, hEnd]

theorem recordBytes_cons (text next : String) (texts : List String) :
    recordBytes (text :: next :: texts) =
      (fieldChars text).flatMap String.utf8EncodeChar ++ comma :: recordBytes (next :: texts) := by
  have hComma : String.utf8EncodeChar ',' = [comma] := by decide
  unfold recordBytes recordChars
  rw [List.map_cons, List.map_cons, List.intercalate_cons_cons, List.append_assoc, List.append_assoc,
    List.flatMap_append, List.flatMap_append, List.flatMap_singleton, hComma]
  rfl

/-- The fields of a record behind its first. -/
theorem scan_fields (text : String) (texts : List String) (record : Record) (rest : List UInt8) :
    scan .fieldStart [] record (recordBytes (text :: texts) ++ rest) =
      (record.reverse ++ (text :: texts).map bytesOf) :: scan .recordStart [] [] rest := by
  induction texts generalizing text record with
  | nil =>
    obtain ⟨behind, hOutside, hStart, hScan⟩ := scan_field (Or.inr rfl) text record ([10] ++ rest)
    have hStart' : behind ≠ .recordStart := fun h => nomatch hStart h
    rw [recordBytes_singleton, List.append_assoc, hScan, List.singleton_append,
      scan_lineFeed hOutside hStart', List.reverse_reverse, List.reverse_cons]
    rfl
  | cons next texts ih =>
    obtain ⟨behind, hOutside, -, hScan⟩ := scan_field (Or.inr rfl) text record
      (comma :: recordBytes (next :: texts) ++ rest)
    rw [recordBytes_cons, List.append_assoc, hScan, List.cons_append, scan_comma hOutside, ih,
      List.reverse_reverse, List.reverse_cons, List.append_assoc]
    rfl

/-- A record of two fields or more, as it is written. -/
theorem scan_record {texts : List String} (hTwo : 2 ≤ texts.length) (rest : List UInt8) :
    scan .recordStart [] [] (recordBytes texts ++ rest) =
      texts.map bytesOf :: scan .recordStart [] [] rest := by
  obtain _ | ⟨text, _ | ⟨next, texts⟩⟩ := texts
  · exact absurd hTwo (Nat.not_succ_le_zero 1)
  · exact absurd hTwo (Nat.not_succ_le_self 1)
  obtain ⟨behind, hOutside, -, hScan⟩ := scan_field (Or.inl rfl) text []
    (comma :: recordBytes (next :: texts) ++ rest)
  rw [recordBytes_cons, List.append_assoc, hScan, List.cons_append, scan_comma hOutside, scan_fields,
    List.reverse_reverse]
  rfl

theorem bytesOf_write (records : List (List String)) :
    bytesOf (write records) = records.flatMap recordBytes := by
  rw [bytesOf_eq]
  unfold write
  rw [String.toList_ofList, List.flatMap_assoc]
  rfl

theorem scan_records {written : List (List String)} (hTwo : ∀ texts ∈ written, 2 ≤ texts.length) :
    scan .recordStart [] [] (written.flatMap recordBytes) = written.map (·.map bytesOf) := by
  induction written with
  | nil => rfl
  | cons texts written ih =>
    obtain ⟨hFirst, hRest⟩ := List.forall_mem_cons.mp hTwo
    rw [List.flatMap_cons, scan_record hFirst, ih hRest]
    rfl

theorem dropMark_of_head? (hHead : bs.head? ≠ some 0xEF) : dropMark bs = bs := by
  unfold dropMark
  split
  · exact absurd rfl hHead
  · rfl

/-- Records of two fields or more are read back byte by byte, unless what is written begins like a byte
order mark. -/
theorem records_write {written : List (List String)} (hTwo : ∀ texts ∈ written, 2 ≤ texts.length)
    (hHead : (bytesOf (write written)).head? ≠ some 0xEF) :
    records (bytesOf (write written)) = written.map (·.map bytesOf) := by
  unfold records
  rw [dropMark_of_head? hHead, bytesOf_write, scan_records hTwo]

/-- The bytes of a text are read as the text. -/
theorem Field.text?_bytesOf (text : String) : Field.text? (bytesOf text) = some text := by
  have hBytes : (⟨(bytesOf text).toArray⟩ : ByteArray) = text.toByteArray := rfl
  unfold Field.text? String.fromUTF8?
  rw [hBytes, dif_pos text.isValidUTF8]
  rfl

end Csv

end Purse
