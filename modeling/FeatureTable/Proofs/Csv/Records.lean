import FeatureTable.Csv.Record
import FeatureTable.Proofs.Text.Utf8

namespace FeatureTable.Csv

/-!
The reader of records undoes the writer.  Bytes are read one at a time, so what is written is
followed part by part: a field, the separator behind it, the fields of a record, its line break.
-/

abbrev fieldBytes (text : String) : Field :=
  Text.utf8 text.toList

theorem fieldText?_fieldBytes (text : String) : fieldText? (fieldBytes text) = some text := by
  rw [fieldText?, Text.fromUTF8?_utf8, String.ofList_toList]

theorem recordTexts?_fieldBytes (record : List String) :
    recordTexts? (record.map fieldBytes) = some record := by
  rw [recordTexts?]
  induction record with
  | nil => rfl
  | cons text record ih => simp [fieldText?_fieldBytes, ih]

def isSpecial (b : UInt8) : Bool :=
  b == comma || b == quote || isLineBreak b

theorem needsQuotes_of_isSpecial {c : Char} {b : UInt8} (hb : b ∈ String.utf8EncodeChar c)
    (hspecial : isSpecial b = true) : needsQuotes c = true := by
  have hc : b.toNat < 128 → c = Char.ofNat b.toNat := fun hlow => by
    rw [← Text.toNat_eq_of_mem_utf8EncodeChar hb hlow, Char.ofNat_toNat]
  simp only [isSpecial, isLineBreak, Bool.or_eq_true, beq_iff_eq] at hspecial
  rcases hspecial with (rfl | rfl) | rfl | rfl <;> rw [hc (by decide)] <;> rfl

theorem isSpecial_of_mem_utf8 {cs : List Char} (hcs : cs.any needsQuotes = false) {b : UInt8}
    (hb : b ∈ Text.utf8 cs) : isSpecial b = false := by
  obtain ⟨c, hc, hbc⟩ := List.mem_flatMap.mp hb
  by_contra hspecial
  have hneeds := needsQuotes_of_isSpecial hbc (by simpa using hspecial)
  rw [List.any_eq_false] at hcs
  exact hcs c hc hneeds

theorem ne_quote_of_mem_utf8EncodeChar {c : Char} (hc : c ≠ '"') {b : UInt8}
    (hb : b ∈ String.utf8EncodeChar c) : b ≠ quote := by
  rintro rfl
  refine hc ?_
  have hnat := Text.toNat_eq_of_mem_utf8EncodeChar hb (by decide)
  rw [← Char.ofNat_toNat c, hnat]
  rfl

/-- A quote opens a field that has no bytes yet. -/
def Place.opens : Place → Bool
  | .recordStart => true
  | .fieldStart => true
  | _ => false

variable {place : Place} {fields : List Field} {field : Field} {b : UInt8} {rest : List UInt8}

theorem recordsFrom_quoted_cons : recordsFrom .quoted fields field (b :: rest) =
    if b == quote then recordsFrom .behindQuote fields field rest
    else recordsFrom .quoted fields (b :: field) rest := rfl

theorem recordsFrom_behindQuote_quote : recordsFrom .behindQuote fields field (quote :: rest) =
    recordsFrom .quoted fields (quote :: field) rest := rfl

theorem recordsFrom_quote (hplace : place.opens = true) :
    recordsFrom place fields field (quote :: rest) = recordsFrom .quoted fields field rest := by
  cases place with
  | recordStart => rfl
  | fieldStart => rfl
  | bare => cases hplace
  | quoted => cases hplace
  | behindQuote => cases hplace

theorem recordsFrom_comma (hplace : place ≠ .quoted) :
    recordsFrom place fields field (comma :: rest) =
      recordsFrom .fieldStart (field.reverse :: fields) [] rest := by
  cases place with
  | quoted => exact absurd rfl hplace
  | _ => rfl

theorem recordsFrom_lineFeed (hquoted : place ≠ .quoted) (hstart : place ≠ .recordStart) :
    recordsFrom place fields field (lineFeed :: rest) =
      (field.reverse :: fields).reverse :: recordsFrom .recordStart [] [] rest := by
  cases place with
  | quoted => exact absurd rfl hquoted
  | recordStart => exact absurd rfl hstart
  | _ => rfl

theorem recordsFrom_cons (hplace : place ≠ .quoted) : ∃ opens doubles skips : Bool,
    recordsFrom place fields field (b :: rest) =
      if b == quote && opens then recordsFrom .quoted fields field rest
      else if b == quote && doubles then recordsFrom .quoted fields (b :: field) rest
      else if b == comma then recordsFrom .fieldStart (field.reverse :: fields) [] rest
      else if isLineBreak b then
        if skips then recordsFrom .recordStart [] [] rest
        else (field.reverse :: fields).reverse :: recordsFrom .recordStart [] [] rest
      else recordsFrom .bare fields (b :: field) rest := by
  cases place with
  | quoted => exact absurd rfl hplace
  | recordStart => exact ⟨true, false, true, rfl⟩
  | fieldStart => exact ⟨true, false, false, rfl⟩
  | bare => exact ⟨false, false, false, rfl⟩
  | behindQuote => exact ⟨false, true, false, rfl⟩

theorem recordsFrom_of_not_special (hplace : place ≠ .quoted) (hb : isSpecial b = false) :
    recordsFrom place fields field (b :: rest) = recordsFrom .bare fields (b :: field) rest := by
  simp only [isSpecial, Bool.or_eq_false_iff] at hb
  obtain ⟨⟨hcomma, hquote⟩, hbreak⟩ := hb
  obtain ⟨opens, doubles, skips, hstep⟩ := @recordsFrom_cons place fields field b rest hplace
  rw [hstep]
  simp [hcomma, hquote, hbreak]

theorem recordsFrom_bare_append {bytes : List UInt8}
    (hbytes : ∀ b ∈ bytes, isSpecial b = false) :
    recordsFrom .bare fields field (bytes ++ rest) =
      recordsFrom .bare fields (bytes.reverse ++ field) rest := by
  induction bytes generalizing field with
  | nil => rfl
  | cons b bytes ih =>
      rw [List.cons_append, recordsFrom_of_not_special Place.noConfusion (hbytes b (by simp)),
        ih fun b hb => hbytes b (List.mem_cons_of_mem _ hb)]
      simp

theorem recordsFrom_quoted_append {bytes : List UInt8} (hbytes : ∀ b ∈ bytes, b ≠ quote) :
    recordsFrom .quoted fields field (bytes ++ rest) =
      recordsFrom .quoted fields (bytes.reverse ++ field) rest := by
  induction bytes generalizing field with
  | nil => rfl
  | cons b bytes ih =>
      have hb : ¬(b == quote) = true := by simpa using hbytes b (by simp)
      rw [List.cons_append, recordsFrom_quoted_cons, if_neg hb,
        ih fun b hb => hbytes b (List.mem_cons_of_mem _ hb)]
      simp

/-- Two quotes stand for one. -/
theorem recordsFrom_doubleQuotes (cs : List Char) :
    recordsFrom .quoted fields field (Text.utf8 (doubleQuotes cs) ++ rest) =
      recordsFrom .quoted fields ((Text.utf8 cs).reverse ++ field) rest := by
  induction cs generalizing field with
  | nil => rfl
  | cons c cs ih =>
      by_cases hc : c = '"'
      · subst hc
        have htwice : Text.utf8 (doubleQuotes ('"' :: cs)) ++ rest =
            quote :: quote :: (Text.utf8 (doubleQuotes cs) ++ rest) := rfl
        have honce : Text.utf8 ('"' :: cs) = quote :: Text.utf8 cs := rfl
        rw [htwice, honce, recordsFrom_quoted_cons, if_pos (beq_self_eq_true quote),
          recordsFrom_behindQuote_quote, ih]
        simp
      · rw [doubleQuotes, if_neg hc, Text.utf8_cons, List.append_assoc,
          recordsFrom_quoted_append fun b => ne_quote_of_mem_utf8EncodeChar hc, ih, Text.utf8_cons]
        simp

/-- Where the reader stands behind the text of a field. -/
def placeBehind (place : Place) (text : String) : Place :=
  if text.toList.any needsQuotes then .behindQuote
  else if text.toList.isEmpty then place
  else .bare

theorem recordsFrom_writeField (hplace : place.opens = true) (text : String) :
    recordsFrom place fields [] (Text.utf8 (writeField text) ++ rest) =
      recordsFrom (placeBehind place text) fields (fieldBytes text).reverse rest := by
  unfold writeField placeBehind
  by_cases hquotes : text.toList.any needsQuotes = true
  · have hwritten : Text.utf8 ('"' :: doubleQuotes text.toList ++ ['"']) ++ rest =
        quote :: (Text.utf8 (doubleQuotes text.toList) ++ quote :: rest) := by
      simp only [List.cons_append, Text.utf8_cons, Text.utf8_append, List.append_assoc]
      rfl
    rw [if_pos hquotes, if_pos hquotes, hwritten, recordsFrom_quote hplace,
      recordsFrom_doubleQuotes, recordsFrom_quoted_cons, if_pos (beq_self_eq_true quote),
      List.append_nil]
  · rw [if_neg hquotes, if_neg hquotes]
    have hplain := fun b => isSpecial_of_mem_utf8 (b := b) (by simpa using hquotes)
    cases hcs : text.toList with
    | nil => simp [fieldBytes, hcs]
    | cons c cs =>
        rw [hcs] at hplain
        obtain ⟨b, bytes, hbytes⟩ : ∃ b bytes, Text.utf8 (c :: cs) = b :: bytes :=
          List.exists_cons_of_ne_nil (Text.utf8_cons_ne_nil c cs)
        rw [hbytes] at hplain
        rw [fieldBytes, hcs, hbytes, List.cons_append,
          recordsFrom_of_not_special (by rintro rfl; cases hplace) (hplain b (by simp)),
          recordsFrom_bare_append fun b hb => hplain b (List.mem_cons_of_mem _ hb)]
        simp

theorem placeBehind_ne_quoted (hplace : place.opens = true) (text : String) :
    placeBehind place text ≠ .quoted := by
  unfold placeBehind
  split_ifs
  · exact Place.noConfusion
  · rintro rfl
    cases hplace
  · exact Place.noConfusion

theorem placeBehind_ne_recordStart {text : String} (h : place = .recordStart → text ≠ "") :
    placeBehind place text ≠ .recordStart := by
  unfold placeBehind
  split_ifs with hquotes hempty
  · exact Place.noConfusion
  · rintro rfl
    exact h rfl (by simpa using hempty)
  · exact Place.noConfusion

/-- A line that is not empty is the record that was written. -/
theorem recordsFrom_writeFields {record : List String} (hplace : place.opens = true)
    (hrecord : record ≠ []) (hline : place = .recordStart → writeFields record ≠ []) :
    recordsFrom place fields [] (Text.utf8 (writeFields record) ++ lineFeed :: rest) =
      (fields.reverse ++ record.map fieldBytes) :: recordsFrom .recordStart [] [] rest := by
  induction record generalizing place fields with
  | nil => exact absurd rfl hrecord
  | cons text record ih =>
      cases record with
      | nil =>
          have htext : place = .recordStart → text ≠ "" := by
            rintro hstart rfl
            exact hline hstart rfl
          rw [writeFields, recordsFrom_writeField hplace,
            recordsFrom_lineFeed (placeBehind_ne_quoted hplace text)
              (placeBehind_ne_recordStart htext)]
          simp
      | cons next record =>
          have hwritten : Text.utf8 (writeFields (text :: next :: record)) ++ lineFeed :: rest =
              Text.utf8 (writeField text) ++
                comma :: (Text.utf8 (writeFields (next :: record)) ++ lineFeed :: rest) := by
            rw [writeFields, Text.utf8_append, Text.utf8_cons, List.append_assoc]
            · rfl
            · simp
          rw [hwritten, recordsFrom_writeField hplace,
            recordsFrom_comma (placeBehind_ne_quoted hplace text),
            ih rfl (by simp) Place.noConfusion]
          simp

theorem writeFields_eq_nil {record : List String} (hrecord : record ≠ [])
    (h : writeFields record = []) : record = [""] := by
  match record with
  | [] => exact absurd rfl hrecord
  | [text] =>
      have hempty : text.toList = [] := by
        simp only [writeFields, writeField] at h
        split_ifs at h
        · cases h
        · exact h
      rw [← String.ofList_toList (s := text), hempty, String.ofList_nil]
  | text :: next :: record => simp [writeFields] at h

theorem recordsFrom_writeRecord {record : List String} (hrecord : record ≠ []) :
    recordsFrom .recordStart [] [] (Text.utf8 (writeRecord record) ++ rest) =
      record.map fieldBytes :: recordsFrom .recordStart [] [] rest := by
  by_cases hline : writeFields record = []
  · obtain rfl := writeFields_eq_nil hrecord hline
    rfl
  · have hwritten : Text.utf8 (writeRecord record) ++ rest =
        Text.utf8 (writeFields record) ++ lineFeed :: rest := by
      simp only [writeRecord, List.isEmpty_iff, if_neg hline, Text.utf8_append, List.append_assoc]
      rfl
    rw [hwritten, recordsFrom_writeFields rfl hrecord fun _ => hline]
    rfl

theorem recordsFrom_writeRecords {all : List (List String)} (hall : ∀ record ∈ all, record ≠ []) :
    recordsFrom .recordStart [] [] (Text.utf8 (all.map writeRecord).flatten) =
      all.map (List.map fieldBytes) := by
  induction all with
  | nil => rfl
  | cons record all ih =>
      rw [List.map_cons, List.flatten_cons, Text.utf8_append,
        recordsFrom_writeRecord (hall record (by simp)),
        ih fun record hrecord => hall record (List.mem_cons_of_mem _ hrecord), List.map_cons]

/-- A record starts with the first character of its first field, or with one of the writer's. -/
theorem head?_writeRecord (text : String) (record : List String) :
    (writeRecord (text :: record)).head? = text.toList.head? ∨
      (writeRecord (text :: record)).head? = some '"' ∨
      (writeRecord (text :: record)).head? = some ',' := by
  by_cases hquotes : text.toList.any needsQuotes = true
  · refine .inr (.inl ?_)
    cases record <;> simp [writeRecord, writeFields, writeField, hquotes]
  · cases hcs : text.toList with
    | nil =>
        refine .inr ?_
        cases record <;> simp [writeRecord, writeFields, writeField, hcs]
    | cons c cs =>
        rw [hcs] at hquotes
        refine .inl ?_
        cases record <;> simp [writeRecord, writeFields, writeField, hcs, hquotes]

/-- What is written is read back, unless its first field starts with the mark of byte order. -/
theorem records_writeRecords {text : String} {record : List String} {all : List (List String)}
    (hall : ∀ record ∈ all, record ≠ []) (hmark : text.toList.head? ≠ some '\uFEFF') :
    records (Text.utf8 (writeRecord (text :: record) ++ (all.map writeRecord).flatten)) =
      ((text :: record) :: all).map (List.map fieldBytes) := by
  have hhead : (writeRecord (text :: record) ++ (all.map writeRecord).flatten).head? ≠
      some '\uFEFF' := by
    have hfirst : (writeRecord (text :: record)).head? ≠ some '\uFEFF' := by
      rcases head?_writeRecord text record with h | h | h <;> rw [h]
      · exact hmark
      · decide
      · decide
    rw [List.head?_append]
    cases hcs : (writeRecord (text :: record)).head? with
    | none => simp [writeRecord] at hcs
    | some c => simpa [hcs] using hfirst
  rw [records, Text.dropByteOrderMark_utf8 hhead, Text.utf8_append,
    recordsFrom_writeRecord (by simp), recordsFrom_writeRecords hall, List.map_cons (l := all)]

end FeatureTable.Csv
