import MailFilter.Message.Edit
import MailFilter.Proofs.Message.Block
import MailFilter.Text.Line

/-
  What is known of the headers of a message, whether they
  were read or put there by a change.

  A header that was read has a plain value, and its line is
  the name and the text it was read from. A header that was
  put there has a printable name.

  Key definitions include:
    * `Header.IsPlain`
    * `Header.IsPrintable`
    * `Header.IsSound`
    * `Message.IsSound`

  Main statements:
    * `Message.isPlain_of_parse`
    * `Message.isSound_of_isTerminated`
    * `Message.setHeader_cases`
    * `Message.isSound_edit`
-/

namespace MailFilter

open Bytes

------------------------------------------------------------
-- Plain Values
------------------------------------------------------------

namespace Text

/- What is trimmed does not end in a blank. -/
theorem isBlank_of_getLast?_trimChars
    {text : List Char}
    {c : Char}
    (hLast : (trimChars text).getLast? = some c) :
    isBlank c = false := by
  rcases List.mem_getLast?_eq_getLast hLast with ⟨hSome, hEq⟩
  rw [hEq]
  exact Bool.eq_false_iff.mpr
    (List.rdropWhile_last_not isBlank _ hSome)

/- What is trimmed does not start with a blank. -/
theorem isBlank_of_head?_trimChars
    {text : List Char}
    {c : Char}
    (hFirst : (trimChars text).head? = some c) :
    isBlank c = false := by
  have hPrefix : trimChars text <+: trimStart text :=
    List.rdropWhile_prefix isBlank _
  rcases hPrefix with ⟨back, hWhole⟩
  have hHead : (trimStart text).head? = some c := by
    rw [← hWhole, List.head?_append, hFirst]
    rfl
  have hNot := List.head?_dropWhile_not isBlank text
  unfold trimStart at hHead
  rw [hHead] at hNot
  exact hNot

/- Trimming twice does no more than trimming once. -/
theorem trimChars_trimChars
    (text : List Char) :
    trimChars (trimChars text) = trimChars text :=
  trimChars_eq_self
    (fun _ hFirst => isBlank_of_head?_trimChars hFirst)
    (fun _ hLast => isBlank_of_getLast?_trimChars hLast)

------------------------------------------------------------
-- Case
------------------------------------------------------------

theorem toNat_toLower
    (c : Char) :
    c.toLower.toNat =
      if 65 ≤ c.toNat ∧ c.toNat ≤ 90 then c.toNat + 32
        else c.toNat := by
  have hRange :
      ('A'.val ≤ c.val ∧ c.val ≤ 'Z'.val) ↔
        (65 ≤ c.toNat ∧ c.toNat ≤ 90) := by
    simp only [UInt32.le_iff_toNat_le]
    rfl
  unfold Char.toLower
  by_cases hUpper : 65 ≤ c.toNat ∧ c.toNat ≤ 90
  · rw [dif_pos (hRange.mpr hUpper), if_pos hUpper]
    change (c.val + ('a'.val - 'A'.val)).toNat = c.toNat + 32
    rw [UInt32.toNat_add]
    have hGap : ('a'.val - 'A'.val).toNat = 32 := rfl
    have hSelf : c.val.toNat = c.toNat := rfl
    rw [hGap, hSelf]
    omega
  · rw [dif_neg (fun h => hUpper (hRange.mp h)), if_neg hUpper]

end Text

namespace Header

/-
  A value that reading can give: it has no blanks at its ends,
  and every line feed is followed by a space or a tab.
-/
def IsPlain
    (value : String) : Prop :=
  Text.trim value = value ∧ Text.IsFolded value.toList

instance
    (value : String) :
    Decidable (IsPlain value) := by
  unfold IsPlain
  infer_instance

/- A text on one line without blanks at its ends is plain. -/
theorem isPlain_of_isOneLine
    {value : String}
    (hLine : Text.IsOneLine value)
    (hTrimmed : Text.IsTrimmed value) :
    IsPlain value := by
  constructor
  · rw [Text.trim, hTrimmed.trimChars_eq, String.ofList_toList]
  · apply IsFolded.of_forall
    intro c hc
    simp only [beq_eq_false_iff_ne]
    rintro rfl
    exact hLine hc

/- What is read from folded bytes is plain. -/
theorem isPlain_valueText
    {value : Bytes}
    (hFolded : value.IsFolded) :
    IsPlain (valueText value) := by
  constructor
  · simp only [Text.trim, valueText, String.toList_ofList,
      Text.trimChars_trimChars]
  · simp only [valueText, Text.toList_trim, Utf8.decodeLossy,
      String.toList_ofList]
    exact Text.isFolded_trimChars
      (Utf8.isFolded_decodeChars hFolded)

/- A plain value that was written is read back. -/
theorem valueText_encode
    {value : String}
    (hPlain : IsPlain value) :
    valueText (Utf8.encode value) = value := by
  rw [valueText, Utf8.decodeLossy_encode]
  exact hPlain.1

/- A text that does not end in a line ending keeps its bytes. -/
theorem dropLineEnds_encode
    {text : String}
    (hLast :
      ∀ c, text.toList.getLast? = some c → c ≠ '\r' ∧ c ≠ '\n') :
    dropLineEnds (Utf8.encode text) = Utf8.encode text := by
  apply List.rdropWhile_eq_self_iff.mpr
  intro hSome hEnd
  have hSplit := List.dropLast_concat_getLast hSome
  generalize (Utf8.encode text).getLast hSome = b at hSplit hEnd
  generalize (Utf8.encode text).dropLast = front at hSplit
  have hByte : b = cr ∨ b = lf := by
    simpa using hEnd
  have hAscii : b < 0x80 := by
    rcases hByte with rfl | rfl <;> decide
  have hRead : Utf8.decodeChars (Utf8.encode text) = text.toList := by
    have hText := Utf8.decodeLossy_encode text
    rw [Utf8.decodeLossy] at hText
    rw [← hText, String.toList_ofList, hText]
  rw [← hSplit, Utf8.decodeChars_append_ascii _ hAscii,
    Utf8.decodeChars_cons_ascii hAscii] at hRead
  have hChar : text.toList.getLast? = some (Char.ofNat b.toNat) := by
    rw [← hRead]
    simp [Utf8.decodeChars, Utf8.scan, Utf8.scanFrom]
  have hNot := hLast _ hChar
  rcases hByte with rfl | rfl
  · exact hNot.1 rfl
  · exact hNot.2 rfl

/- A line ending after a value is no part of it. -/
theorem valueText_append_blankLine
    {line : Bytes}
    (hLine : line.IsBlankLine)
    (value : Bytes) :
    valueText (value ++ line) = valueText value := by
  rcases hLine with rfl | rfl
  · exact valueText_concat_lineEnd rfl value
  · have hSplit : value ++ [cr, lf] = value ++ [cr] ++ [lf] := by
      simp
    rw [hSplit, valueText_concat_lineEnd rfl,
      valueText_concat_lineEnd rfl]

------------------------------------------------------------
-- Printable Names
------------------------------------------------------------

/- Printable ASCII characters without a colon. -/
def IsPrintable
    (name : String) : Prop :=
  ∀ c ∈ name.toList,
    0x20 ≤ c.toNat ∧ c.toNat ≤ 0x7E ∧ c ≠ ':'

instance
    (name : String) :
    Decidable (IsPrintable name) :=
  List.decidableBAll _ name.toList

/- An ASCII character is one byte. -/
theorem encodeChar_ascii
    {c : Char}
    (hAscii : c.toNat < 0x80) :
    String.utf8EncodeChar c = [UInt8.ofNat c.toNat] := by
  have hLow : c.val.toNat ≤ 0x7F := Nat.le_of_lt_succ hAscii
  simp only [String.utf8EncodeChar, hLow, if_true]
  rfl

theorem nameText_encode
    {name : String}
    (hAscii : ∀ c ∈ name.toList, c.toNat < 0x80) :
    nameText (Utf8.encode name) = name := by
  have hChars :
      (Utf8.encodeChars name.toList).map
          (fun b => Char.ofNat b.toNat) = name.toList := by
    generalize name.toList = text at hAscii
    induction text with
    | nil => rfl
    | cons c text ih =>
        rcases List.forall_mem_cons.mp hAscii with
          ⟨hFirst, hRest⟩
        rw [Utf8.encodeChars_cons, encodeChar_ascii hFirst,
          List.singleton_append, List.map_cons,
          ih hRest,
          Utf8.toNat_ofNat_of_lt (by omega)]
        exact congrArg (· :: text) (Char.ofNat_toNat c)
  rw [nameText, Utf8.encode, hChars, String.ofList_toList]

/- A byte of a printable name is printable. -/
theorem IsPrintable.mem_encode
    {name : String}
    (hName : IsPrintable name)
    {b : UInt8}
    (hMem : b ∈ Utf8.encode name) :
    0x20 ≤ b.toNat ∧ b ≠ colon := by
  rcases List.mem_flatMap.mp hMem with ⟨c, hText, hByte⟩
  rcases hName c hText with ⟨hLow, hHigh, hColon⟩
  rw [encodeChar_ascii (by omega), List.mem_singleton] at hByte
  have hNat : b.toNat = c.toNat := by
    rw [hByte, Utf8.toNat_ofNat_of_lt (by omega)]
  refine ⟨by omega, ?_⟩
  rintro rfl
  apply hColon
  rw [← Char.ofNat_toNat c, ← hNat]
  rfl

------------------------------------------------------------
-- Sound Headers
------------------------------------------------------------

/- The line is a name, a colon and a text that is the value. -/
def IsFieldLine
    (header : Header) : Prop :=
  ∃ name text : Bytes,
    header.line = name ++ colon :: text ∧
      colon ∉ name ∧ lf ∉ name ∧ text.IsFolded ∧
      header.name = nameText name ∧
      header.value = valueText text

/-
  The line is a name that had no colon after it, without a
  carriage return that ended it.
-/
def IsNameLine
    (header : Header) : Prop :=
  ∃ name : Bytes,
    header.line = dropCr name ∧
      colon ∉ name ∧ lf ∉ name ∧
      header.name = nameText name ∧
      header.value = ""

/-
  A header as reading or changing a message can give it. If
  its value is not plain its line may be anything.
-/
structure IsSound
    (header : Header) : Prop where
  opens :
    ∃ b rest,
      header.line = b :: rest ∧ b ≠ lf ∧ b ≠ cr
  form :
    IsPlain header.value →
      header.IsFieldLine ∨ header.IsNameLine

theorem line_of_raw_none
    (name value : String) :
    Header.line ⟨name, value, none⟩ =
      Utf8.encode name ++
          colon :: space :: Utf8.encode value := by
  simp only [Header.line, Option.getD_none, Utf8.encode,
    String.toList_append, Utf8.encodeChars_append,
    List.append_assoc]
  rfl

/- A header with a printable name and a plain value. -/
theorem isFieldLine_of_isPrintable
    {name value : String}
    (hName : IsPrintable name)
    (hPlain : IsPlain value) :
    IsFieldLine ⟨name, value, none⟩ := by
  refine ⟨Utf8.encode name, space :: Utf8.encode value,
    line_of_raw_none name value, ?_, ?_, ?_, ?_, ?_⟩
  · intro hMem
    exact (hName.mem_encode hMem).2 rfl
  · intro hMem
    exact absurd (hName.mem_encode hMem).1 (by decide)
  · refine ⟨?_, Utf8.isFolded_encodeChars hPlain.2⟩
    intro hFeed
    exact absurd hFeed (by decide)
  · symm
    apply nameText_encode
    intro c hc
    exact Nat.lt_succ_of_le
      (Nat.le_succ_of_le (hName c hc).2.1)
  · rw [valueText_cons_space, valueText_encode hPlain]

/- A header with a printable name is sound. -/
theorem isSound_of_isPrintable
    {name : String}
    (hName : IsPrintable name)
    (value : String) :
    IsSound ⟨name, value, none⟩ := by
  have hLine := line_of_raw_none name value
  constructor
  · cases hBytes : Utf8.encode name with
    | nil =>
        rw [hLine, hBytes]
        exact ⟨colon, _, rfl, by decide, by decide⟩
    | cons b rest =>
        have hFirst := hName.mem_encode (b := b)
          (by rw [hBytes]; exact List.mem_cons_self)
        rw [hLine, hBytes]
        refine ⟨b, _, rfl, ?_, ?_⟩
        · rintro rfl
          exact absurd hFirst.1 (by decide)
        · rintro rfl
          exact absurd hFirst.1 (by decide)
  · intro hPlain
    exact Or.inl (isFieldLine_of_isPrintable hName hPlain)

/- Dropping line endings from folded bytes leaves them folded. -/
theorem isFolded_dropLineEnds
    {data : Bytes}
    (hFolded : data.IsFolded) :
    (dropLineEnds data).IsFolded := by
  apply MailFilter.IsFolded.rdropWhile hFolded
  intro b hFeed
  rw [beq_iff_eq.mp hFeed]
  rfl

/- A line ending after a text goes with it. -/
theorem exists_text_append
    {ending : Bytes}
    (hEnding : ending.IsBlankLine)
    {text : Bytes}
    (hFolded : text.IsFolded) :
    ∃ whole : Bytes,
      text ++ ending = whole ++ [lf] ∧
        whole.IsFolded ∧
        valueText whole = valueText text ∧
        dropLineEnds whole = dropLineEnds text := by
  rcases hEnding with rfl | rfl
  · exact ⟨text, rfl, hFolded, rfl, rfl⟩
  · refine ⟨text ++ [cr], by simp, ?_, ?_, ?_⟩
    · apply hFolded.append
      exact isFolded_of_lf_not_mem (by decide)
    · exact valueText_concat_lineEnd rfl text
    · exact List.rdropWhile_concat_pos _ _ _ rfl

/- A line with a colon is written as a field. -/
theorem IsFieldLine.isField_append
    {header : Header}
    (hLine : header.IsFieldLine)
    {ending : Bytes}
    (hEnding : ending.IsBlankLine) :
    Bytes.IsField (header.line ++ ending) := by
  rcases hLine with
    ⟨name, text, hLine, hColon, hLf, hFolded, _⟩
  rcases exists_text_append hEnding hFolded with
    ⟨whole, hWhole, hFolded, _⟩
  refine ⟨name, whole, ?_, hColon, hLf, hFolded⟩
  rw [hLine, List.append_assoc, List.cons_append, hWhole,
    List.append_assoc, List.cons_append]

/- It is read back with its name and its value. -/
theorem IsFieldLine.ofLines_append
    {header : Header}
    (hLine : header.IsFieldLine)
    {ending : Bytes}
    (hEnding : ending.IsBlankLine) :
    ofLines (header.line ++ ending) =
      { header with
        raw := some (dropLineEnds header.line) } := by
  rw [ofLines_field (hLine.isField_append hEnding)]
  rcases hLine with
    ⟨name, text, hLine, hColon, hLf, hFolded, hName, hValue⟩
  rcases exists_text_append hEnding hFolded with
    ⟨whole, hWhole, _, hSame, hEnds⟩
  have hEntry :
      name ++ colon :: text ++ ending =
        name ++ colon :: whole ++ [lf] := by
    rw [List.append_assoc, List.cons_append, hWhole,
      List.append_assoc, List.cons_append]
  rw [hLine, hEntry, ofField_append hColon, hSame, hEnds,
    dropLineEnds_append_colon, hName, hValue]

/- What is read from a field is sound. -/
theorem isSound_ofField
    {entry : Bytes}
    (hField : entry.IsField)
    (hLf : entry.head? ≠ some lf)
    (hCr : entry.head? ≠ some cr) :
    (ofField entry).IsSound := by
  rcases hField with ⟨name, text, rfl, hColon, hFeed, hFolded⟩
  rw [ofField_append hColon]
  constructor
  · cases name with
    | nil => exact ⟨colon, _, rfl, by decide, by decide⟩
    | cons b name =>
        refine ⟨b, _, rfl, ?_, ?_⟩
        · rintro rfl
          exact hLf rfl
        · rintro rfl
          exact hCr rfl
  · intro _
    exact Or.inl ⟨name, dropLineEnds text, rfl, hColon, hFeed,
      isFolded_dropLineEnds hFolded, rfl,
      (valueText_dropLineEnds text).symm⟩

/- What is read from a line without a colon is sound. -/
theorem isSound_ofBareLine
    {entry : Bytes}
    (hBare : entry.IsBareLine)
    (hLf : entry.head? ≠ some lf)
    (hCr : entry.head? ≠ some cr) :
    (ofBareLine entry).IsSound := by
  rcases hBare with ⟨name, rfl, hColon, hFeed⟩
  rw [ofBareLine_append]
  constructor
  · change ∃ b rest, dropCr name = b :: rest ∧ b ≠ lf ∧ b ≠ cr
    cases name with
    | nil => exact absurd rfl hLf
    | cons b name =>
        have hFirst : b ≠ lf ∧ b ≠ cr := by
          constructor
          · rintro rfl
            exact hLf rfl
          · rintro rfl
            exact hCr rfl
        unfold dropCr
        split
        · rename_i hLast
          cases name with
          | nil =>
              have hEq : b = cr := by simpa using hLast
              exact absurd hEq hFirst.2
          | cons c name => exact ⟨b, _, rfl, hFirst⟩
        · exact ⟨b, _, rfl, hFirst⟩
  · intro _
    exact Or.inr ⟨name, rfl, hColon, hFeed, rfl, rfl⟩

theorem isSound_ofLines
    {entry : Bytes}
    (hEntry : entry.IsEntry) :
    (ofLines entry).IsSound := by
  rcases hEntry.form with hField | hBare
  · rw [ofLines_field hField]
    exact isSound_ofField hField hEntry.head_ne_lf
      hEntry.head_ne_cr
  · rw [ofLines_bareLine hBare]
    exact isSound_ofBareLine hBare hEntry.head_ne_lf
      hEntry.head_ne_cr

------------------------------------------------------------
-- Values That Are Read
------------------------------------------------------------

/- A value that is read is what follows some place. -/
theorem value_ofLines
    (lines : Bytes) :
    (ofLines lines).value = "" ∨
      ∃ place,
        (ofLines lines).value =
          valueText (lines.drop place) := by
  unfold ofLines
  dsimp only
  split
  · rename_i rest hRest
    split
    · exact Or.inl rfl
    · refine Or.inr ⟨(lines.takeWhile
        fun b => b != colon && b != lf).length + 1, ?_⟩
      rw [← List.drop_drop, hRest]
      change valueText
        (dropLineEnds (rest.dropWhile (· == space))) = _
      rw [valueText_dropLineEnds, valueText_dropWhile_space]
      rfl
  · exact Or.inl rfl

/- Whatever is read has a plain value. -/
theorem isPlain_take
    (data : Bytes) :
    IsPlain (take data).1.value := by
  rcases exists_takeLines_eq data with
    ⟨text, hFolded, hLines⟩
  have hDrop :
      ∀ place, Bytes.IsFolded (text.drop place) := by
    intro place
    rw [← List.take_append_drop place text] at hFolded
    exact hFolded.of_append_right
  rcases value_ofLines (takeLines data).1 with
    hEmpty | ⟨place, hValue⟩
  · rw [take, hEmpty]
    decide
  · rw [take, hValue]
    rcases hLines with hLines | hLines
    · rw [hLines]
      exact isPlain_valueText (hDrop place)
    · rw [hLines, List.drop_append]
      by_cases hInside : place ≤ text.length
      · rw [Nat.sub_eq_zero_of_le hInside, List.drop_zero,
          valueText_append_blankLine (Or.inl rfl)]
        exact isPlain_valueText (hDrop place)
      · have hPast : [lf].drop (place - text.length) = [] := by
          apply List.drop_eq_nil_of_le
          simp only [List.length_singleton]
          omega
        rw [hPast, List.append_nil]
        exact isPlain_valueText (hDrop place)

end Header

namespace Message

open Header

/- What holds of every header that is taken holds of all. -/
theorem forall_of_fieldsFrom
    (holds : Header → Prop)
    (hTake :
      ∀ b rest, b ≠ lf → b ≠ cr → holds (take (b :: rest)).1)
    {found read : List Header}
    (hFound : ∀ header ∈ found, holds header)
    {data body : Bytes}
    (hRead : fieldsFrom found data = .ok (read, body)) :
    ∀ header ∈ read, holds header := by
  fun_induction fieldsFrom found data with
  | case1 found =>
      cases hRead
      simpa using hFound
  | case2 found b rest hLf =>
      cases hRead
      simpa using hFound
  | case3 found b hLf hCr body =>
      cases hRead
      simpa using hFound
  | case4 => cases hRead
  | case5 => cases hRead
  | case6 found b rest hLf hCr hSpace ih =>
      have hFirst := hTake b rest (by simpa using hLf)
        (by simpa using hCr)
      apply ih _ hRead
      exact List.forall_mem_cons.mpr ⟨hFirst, hFound⟩

/- Every message that is read has plain values. -/
theorem isPlain_of_parse
    {raw : Bytes}
    {message : Message}
    (hRead : parse raw = .ok message) :
    ∀ header ∈ message.headers, IsPlain header.value := by
  unfold parse at hRead
  split at hRead
  · cases hRead
  · rename_i headers body hFields
    cases hRead
    exact forall_of_fieldsFrom
      (fun header => IsPlain header.value)
      (fun _ _ _ _ => isPlain_take _) (by simp) hFields

------------------------------------------------------------
-- Sound Messages
------------------------------------------------------------

/- Every header is sound. -/
def IsSound
    (message : Message) : Prop :=
  ∀ header ∈ message.headers, header.IsSound

/- The header block alone says what the headers are. -/
theorem exists_parse_entries
    {entries : List Bytes}
    (hEntries : ∀ entry ∈ entries, IsEntry entry)
    (hApart : StandApart entries)
    {line : Bytes}
    (hLine : line.IsBlankLine)
    (body : Bytes) :
    ∃ message,
      parse (entries.flatten ++ (line ++ body)) = .ok message ∧
        message.headers = entries.map ofLines ∧
        message.IsSound := by
  refine ⟨_, parse_entries hEntries hApart hLine body, rfl, ?_⟩
  intro header hHeader
  rcases List.mem_map.mp hHeader with ⟨entry, hEntry, rfl⟩
  exact isSound_ofLines (hEntries entry hEntry)

/- A terminated message is read, and what is read is sound. -/
theorem isSound_of_isTerminated
    {raw : Bytes}
    (hRaw : IsTerminated raw) :
    ∃ message, parse raw = .ok message ∧ message.IsSound := by
  rcases hRaw with
    ⟨entries, line, body, rfl, hEntries, hApart, hLine⟩
  rcases exists_parse_entries hEntries hApart hLine body with
    ⟨message, hParse, _, hSound⟩
  exact ⟨message, hParse, hSound⟩

/- The name that a change is about. -/
def Edit.name : Edit → String
  | append name _ => name
  | prepend name _ => name
  | set name _ => name
  | remove name => name

theorem isSound_appendHeader
    {message : Message}
    (hSound : message.IsSound)
    {name : String}
    (hName : IsPrintable name)
    (value : String) :
    (message.appendHeader name value).IsSound := by
  intro header hHeader
  rcases List.mem_append.mp hHeader with hOld | hNew
  · exact hSound header hOld
  · rw [List.mem_singleton.mp hNew]
    exact isSound_of_isPrintable hName value

/- A header of a printable name has a printable name. -/
theorem isPrintable_of_isNamed
    {header : Header}
    {name : String}
    (hName : IsPrintable name)
    (hNamed : header.isNamed name = true) :
    IsPrintable header.name := by
  have hLower := congrArg String.toList
    (Text.sameName_iff.mp hNamed)
  simp only [Text.toList_lower] at hLower
  intro c hc
  have hMem : c.toLower ∈ name.toList.map Char.toLower := by
    rw [← hLower]
    exact List.mem_map_of_mem hc
  rcases List.mem_map.mp hMem with ⟨d, hd, hEq⟩
  rcases hName d hd with ⟨hLow, hHigh, hColon⟩
  have hNot : d.toNat ≠ 58 := by
    intro hNat
    apply hColon
    rw [← Char.ofNat_toNat d, hNat]
  have hNat := congrArg Char.toNat hEq
  rw [Text.toNat_toLower, Text.toNat_toLower] at hNat
  refine ⟨?_, ?_, ?_⟩
  · split at hNat <;> split at hNat <;> omega
  · split at hNat <;> split at hNat <;> omega
  · rintro rfl
    have hSelf : (':').toNat = 58 := rfl
    have hNone : ¬ (65 ≤ 58 ∧ 58 ≤ 90) := by decide
    rw [hSelf, if_neg hNone] at hNat
    split at hNat <;> omega

/- The value that a change gives to a header. -/
def Edit.value? : Edit → Option String
  | append _ value => some value
  | prepend _ value => some value
  | set _ value => some value
  | remove _ => none

/-
  A field that is set is added at the end if none has the
  name. Otherwise the first one gets the value, and the other
  ones are dropped.
-/
theorem setHeader_cases
    (message : Message)
    (name value : String) :
    (message.headers.filter (!·.isNamed name) = message.headers ∧
        message.setHeader name value =
          message.appendHeader name value) ∨
      ∃ front first rest,
        message.headers = front ++ first :: rest ∧
          front.filter (!·.isNamed name) = front ∧
          first.isNamed name = true ∧
          message.setHeader name value =
            { message with
              headers :=
                front ++ first.setValue value ::
                  rest.filter (!·.isNamed name) } := by
  have hWhole := List.takeWhile_append_dropWhile
    (p := (!·.isNamed name)) (l := message.headers)
  have hFront :
      (message.headers.takeWhile (!·.isNamed name)).filter
          (!·.isNamed name) =
        message.headers.takeWhile (!·.isNamed name) := by
    rw [List.filter_eq_self]
    intro header hHeader
    simpa using List.mem_takeWhile_imp hHeader
  unfold setHeader
  split
  · rename_i hNone
    rw [hNone, List.append_nil] at hWhole
    rw [hWhole] at hFront
    exact Or.inl ⟨hFront, rfl⟩
  · rename_i first rest hSplit
    rw [hSplit] at hWhole
    have hFirst : first.isNamed name = true := by
      have hNot := List.head?_dropWhile_not
        (!·.isNamed name) message.headers
      rw [hSplit] at hNot
      simpa using hNot
    exact Or.inr ⟨_, first, rest, hWhole.symm, hFront, hFirst,
      rfl⟩

/-
  A header after a change either was there before, or has a
  printable name and the value of the change.
-/
theorem mem_headers_apply
    {message : Message}
    {edit : Edit}
    (hName : IsPrintable edit.name)
    {header : Header}
    (hHeader : header ∈ (edit.apply message).headers) :
    header ∈ message.headers ∨
      ∃ name value,
        header = ⟨name, value, none⟩ ∧
          IsPrintable name ∧
          edit.value? = some value := by
  cases edit with
  | append name value =>
      rcases List.mem_append.mp hHeader with hOld | hNew
      · exact Or.inl hOld
      · exact Or.inr ⟨name, value, List.mem_singleton.mp hNew,
          hName, rfl⟩
  | prepend name value =>
      rcases List.mem_cons.mp hHeader with hNew | hOld
      · exact Or.inr ⟨name, value, hNew, hName, rfl⟩
      · exact Or.inl hOld
  | set name value =>
      change header ∈ (message.setHeader name value).headers
        at hHeader
      rcases message.setHeader_cases name value with
        ⟨_, hSet⟩ | ⟨front, first, rest, hWhole, _, hFirst, hSet⟩
      · rw [hSet] at hHeader
        rcases List.mem_append.mp hHeader with hOld | hNew
        · exact Or.inl hOld
        · exact Or.inr ⟨name, value,
            List.mem_singleton.mp hNew, hName, rfl⟩
      · rw [hSet] at hHeader
        rcases List.mem_append.mp hHeader with hFront | hBack
        · rw [hWhole]
          exact Or.inl (List.mem_append_left _ hFront)
        · rcases List.mem_cons.mp hBack with hNew | hRest
          · exact Or.inr ⟨first.name, value, hNew,
              isPrintable_of_isNamed hName hFirst, rfl⟩
          · rw [hWhole]
            exact Or.inl (List.mem_append_right _
              (List.mem_cons_of_mem _
                (List.mem_of_mem_filter hRest)))
  | remove name =>
      exact Or.inl (List.mem_of_mem_filter hHeader)

/- Changing the headers of a printable name keeps them sound. -/
theorem isSound_edit
    {message : Message}
    (hSound : message.IsSound)
    {edit : Edit}
    (hName : IsPrintable edit.name) :
    (edit.apply message).IsSound := by
  intro header hHeader
  rcases mem_headers_apply hName hHeader with
    hOld | ⟨name, value, rfl, hPrintable, _⟩
  · exact hSound header hOld
  · exact isSound_of_isPrintable hPrintable value

end Message

end MailFilter
