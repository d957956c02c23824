import MailFilter.Proofs.Message.Sound
import MailFilter.Proofs.Smtp.Missing

/-
  A message that was completed is read as the fields that
  were added and those it came with, and its body is what it
  was.

  Key definitions include:
    * `Smtp.IsAddable`
    * `Smtp.IsWritable`
    * `Smtp.lacking`
    * `Smtp.bodyAfter`
    * `Smtp.completed`

  Main statements:
    * `Smtp.isAddable_standard`
    * `Smtp.exists_parse_completed`
    * `Smtp.parse_completed`
-/

namespace MailFilter

open Bytes

namespace Smtp

open Header

------------------------------------------------------------
-- What Is Added
------------------------------------------------------------

/- The text of a field without its line ending. -/
def fieldText
    (field : String × String) : String :=
  field.1 ++ ": " ++ field.2

/- The header that a field which was added is read as. -/
def addedHeader
    (field : String × String) : Header :=
  ⟨field.1, field.2, some (Utf8.encode (fieldText field))⟩

/- A field that can be added and read back. -/
structure IsAddable
    (field : String × String) : Prop where
  name : IsPrintable field.1
  start : (Utf8.encode field.1).startsBlank = false
  value : IsPlain field.2

/- The bytes of the fields that are added. -/
theorem encode_fields
    (ending : String)
    (missing : List (String × String)) :
    Utf8.encode (Completion.fields ending missing) =
      (missing.map fun field =>
        Utf8.encode (fieldText field) ++
          Utf8.encode ending).flatten := by
  unfold Completion.fields
  induction missing with
  | nil => rfl
  | cons field missing ih =>
      rw [List.map_cons, String.join_cons, Utf8.encode_append, ih,
        List.map_cons, List.flatten_cons, Utf8.encode_append]
      rfl

/- What stands in angle brackets is read back. -/
theorem isPlain_bracketed
    {inner : String}
    (hInner : Text.IsOneLine inner) :
    IsPlain ("<" ++ inner ++ ">") := by
  apply isPlain_of_isOneLine
  · rw [Text.isOneLine_append, Text.isOneLine_append]
    exact ⟨⟨by decide, hInner⟩, by decide⟩
  · constructor
    · intro c hFirst
      rw [String.toList_append, String.toList_append] at hFirst
      cases hFirst
      decide
    · intro c hLast
      have hEnd : (">").toList = ['>'] := by decide
      rw [String.toList_append, hEnd, List.getLast?_concat]
        at hLast
      cases hLast
      decide

/- Printable ASCII characters are not blank. -/
theorem isBlank_of_printable
    {c : Char}
    (hRange : 33 ≤ c.toNat ∧ c.toNat ≤ 126) :
    Text.isBlank c = false := by
  simp only [Text.isBlank, Bool.or_eq_false_iff,
    Bool.and_eq_false_iff, decide_eq_false_iff_not,
    beq_eq_false_iff_ne]
  omega

/- The address of the mail system is read back. -/
theorem isPlain_daemon
    {host : String}
    (hHost : ∀ c ∈ host.toList, 33 ≤ c.toNat ∧ c.toNat ≤ 126) :
    IsPlain ("MAILER-DAEMON@" ++ host) := by
  apply isPlain_of_isOneLine
  · rw [Text.isOneLine_append]
    refine ⟨by decide, ?_⟩
    intro hMem
    exact absurd (hHost _ hMem).1 (by decide)
  · have hDaemon : Text.IsTrimmed "MAILER-DAEMON@" := by decide
    refine hDaemon.append ⟨?_, ?_⟩
    · intro c hFirst
      exact isBlank_of_printable
        (hHost c (List.mem_of_head? hFirst))
    · intro c hLast
      exact isBlank_of_printable
        (hHost c (List.mem_of_getLast? hLast))

/- The fields that every message needs can be added. -/
theorem isAddable_standard
    {completion : Completion}
    {stamp : Stamp}
    (hStamp : stamp.IsPlain)
    (hHost :
      ∀ c ∈ completion.hostname.toList,
        33 ≤ c.toNat ∧ c.toNat ≤ 126)
    (hSender :
      ∀ sender ∈ completion.sender, Text.IsOneLine sender) :
    ∀ field ∈ completion.standard stamp, IsAddable field := by
  have hHostLine : Text.IsOneLine completion.hostname := by
    intro hMem
    exact absurd (hHost _ hMem).1 (by decide)
  have hNames :
      ∀ name ∈ standardNames, IsPrintable name ∧
        (Utf8.encode name).startsBlank = false := by
    decide +kernel
  intro field hField
  have hName := hNames field.1 (by
    rw [← map_fst_standard completion]
    exact List.mem_map_of_mem hField)
  refine ⟨hName.1, hName.2, ?_⟩
  simp only [Completion.standard, List.mem_cons,
    List.not_mem_nil, or_false] at hField
  rcases hField with rfl | rfl | rfl | rfl
  · have hInner :
        Text.IsOneLine
          (stamp.unique ++ "@" ++ completion.hostname) := by
      rw [Text.isOneLine_append, Text.isOneLine_append]
      exact ⟨⟨hStamp.unique, by decide⟩, hHostLine⟩
    have hPlain := isPlain_bracketed hInner
    simpa only [String.append_assoc] using hPlain
  · exact isPlain_of_isOneLine hStamp.date hStamp.trimmed
  · cases hFrom : completion.sender with
    | none => exact isPlain_daemon hHost
    | some sender =>
        exact isPlain_bracketed (hSender sender hFrom)
  · change IsPlain "undisclosed-recipients:;"
    decide

/- A field that was added is read as it was. -/
theorem IsAddable.ofLines
    {field : String × String}
    (hField : IsAddable field)
    {ending : Bytes}
    (hEnding : ending.IsBlankLine) :
    ofLines (Utf8.encode (fieldText field) ++ ending) =
      addedHeader field := by
  have hLine := isFieldLine_of_isPrintable hField.name
    hField.value
  have hRead := hLine.ofLines_append hEnding
  have hText :
      dropLineEnds (Utf8.encode (fieldText field)) =
        Utf8.encode (fieldText field) := by
    apply dropLineEnds_encode
    intro c hLast
    have hNot : Text.isBlank c = false ∨ c = ' ' := by
      rw [fieldText, String.toList_append,
        List.getLast?_append] at hLast
      cases hValue : field.2.toList.getLast? with
      | none =>
          rw [hValue] at hLast
          rw [String.toList_append, List.getLast?_append] at hLast
          cases hLast
          exact Or.inr rfl
      | some d =>
          rw [hValue] at hLast
          cases hLast
          left
          rw [← hField.value.1, Text.toList_trim] at hValue
          exact Text.isBlank_of_getLast?_trimChars hValue
    rcases hNot with hNot | rfl
    · constructor
      · rintro rfl
        exact absurd hNot (by decide)
      · rintro rfl
        exact absurd hNot (by decide)
    · decide
  have hBytes :
      Header.line ⟨field.1, field.2, none⟩ =
        Utf8.encode (fieldText field) :=
    rfl
  rw [hBytes, hText] at hRead
  exact hRead

/- A field that is one entry when it is written. -/
structure IsWritable
    (field : String × String) : Prop where
  name : IsPrintable field.1
  start : (Utf8.encode field.1).startsBlank = false
  value : (Utf8.encode field.2).IsFolded

theorem IsAddable.isWritable
    {field : String × String}
    (hField : IsAddable field) :
    IsWritable field :=
  ⟨hField.name, hField.start,
    Utf8.isFolded_encodeChars hField.value.2⟩

theorem IsWritable.isEntry
    {field : String × String}
    (hField : IsWritable field)
    {ending : Bytes}
    (hEnding : ending.IsBlankLine) :
    (Utf8.encode (fieldText field) ++ ending).IsEntry ∧
      startsBlank (Utf8.encode (fieldText field) ++ ending) =
        false := by
  have hBytes :
      Header.line ⟨field.1, field.2, none⟩ =
        Utf8.encode (fieldText field) :=
    rfl
  have hParts := line_of_raw_none field.1 field.2
  rw [hBytes] at hParts
  have hFolded :
      Bytes.IsFolded (space :: Utf8.encode field.2) := by
    refine ⟨?_, hField.value⟩
    intro hFeed
    exact absurd hFeed (by decide)
  rcases exists_text_append hEnding hFolded with
    ⟨whole, hWhole, hWholeFolded, _⟩
  have hForm :
      IsField (Utf8.encode (fieldText field) ++ ending) := by
    refine ⟨Utf8.encode field.1, whole, ?_, ?_, ?_,
      hWholeFolded⟩
    · rw [hParts, List.append_assoc, List.cons_append, hWhole,
        List.append_assoc, List.cons_append]
    · intro hMem
      exact (hField.name.mem_encode hMem).2 rfl
    · intro hMem
      exact absurd (hField.name.mem_encode hMem).1 (by decide)
  have hSound := isSound_of_isPrintable hField.name field.2
  rcases hSound.opens with ⟨b, rest, hOpens, hLf, hCr⟩
  rw [hBytes] at hOpens
  refine ⟨⟨Or.inl hForm, ?_, ?_⟩, ?_⟩
  · simpa [hOpens] using hLf
  · simpa [hOpens] using hCr
  · rw [hParts]
    have hStart := hField.start
    cases hName : Utf8.encode field.1 with
    | nil => rfl
    | cons c name =>
        rw [hName] at hStart
        exact hStart

/- A value on one line is written on one line. -/
theorem isWritable_of_isOneLine
    {field : String × String}
    (hName : IsPrintable field.1)
    (hStart : (Utf8.encode field.1).startsBlank = false)
    (hValue : Text.IsOneLine field.2) :
    IsWritable field := by
  refine ⟨hName, hStart, isFolded_of_lf_not_mem ?_⟩
  intro hMem
  exact hValue (Utf8.mem_of_mem_encode (by decide) hMem)

/- The values of the fields that every message needs are. -/
theorem isOneLine_standard
    {completion : Completion}
    {stamp : Stamp}
    (hStamp : stamp.IsPlain)
    (hHost : Text.IsOneLine completion.hostname)
    (hSender :
      ∀ sender ∈ completion.sender, Text.IsOneLine sender) :
    ∀ field ∈ completion.standard stamp,
      Text.IsOneLine field.2 := by
  intro field hField
  simp only [Completion.standard, List.mem_cons,
    List.not_mem_nil, or_false] at hField
  rcases hField with rfl | rfl | rfl | rfl
  · simp only [Text.isOneLine_append]
    exact ⟨⟨⟨⟨by decide, hStamp.unique⟩, by decide⟩, hHost⟩,
      by decide⟩
  · exact hStamp.date
  · cases hFrom : completion.sender with
    | none =>
        rw [Text.isOneLine_append]
        exact ⟨by decide, hHost⟩
    | some sender =>
        simp only [Text.isOneLine_append]
        exact ⟨⟨by decide, hSender sender hFrom⟩, by decide⟩
  · change Text.IsOneLine "undisclosed-recipients:;"
    decide

/- So they are written on one line each. -/
theorem isWritable_standard
    {completion : Completion}
    {stamp : Stamp}
    (hStamp : stamp.IsPlain)
    (hHost : Text.IsOneLine completion.hostname)
    (hSender :
      ∀ sender ∈ completion.sender, Text.IsOneLine sender) :
    ∀ field ∈ completion.standard stamp, IsWritable field := by
  have hNames :
      ∀ name ∈ standardNames, IsPrintable name ∧
        (Utf8.encode name).startsBlank = false := by
    decide +kernel
  intro field hField
  have hName := hNames field.1 (by
    rw [← map_fst_standard completion stamp]
    exact List.mem_map_of_mem hField)
  exact isWritable_of_isOneLine hName.1 hName.2
    (isOneLine_standard hStamp hHost hSender field hField)

------------------------------------------------------------
-- Completed Messages
------------------------------------------------------------

/- The fields that a block lacks. -/
def lacking
    (completion : Completion)
    (stamp : Stamp)
    (fields : List Bytes) : List (String × String) :=
  (completion.standard stamp).filter fun field =>
    !hasField fields field.1

/-
  The body of a message by the lines that are left after the
  fields: what follows the blank line if there is one, and
  all of them otherwise.
-/
def bodyAfter
    (left : List Bytes) : Bytes :=
  if endsBlank left then left.tail.flatten else left.flatten

/- A message with fields in front and a blank line. -/
def completed
    (ending : Bytes)
    (added : List (String × String))
    (fields left : List Bytes) : Bytes :=
  (added.map fun field =>
      Utf8.encode (fieldText field) ++ ending).flatten ++
    fields.flatten ++
    (if endsBlank left then [] else ending) ++
    left.flatten

/- The lines that are left are a blank line and the body. -/
theorem exists_blankLine
    {ending : Bytes}
    (hEnding : ending.IsBlankLine)
    (left : List Bytes) :
    ∃ line : Bytes, line.IsBlankLine ∧
      (if endsBlank left then [] else ending) ++ left.flatten =
        line ++ bodyAfter left := by
  unfold bodyAfter
  cases hEnds : endsBlank left with
  | false => exact ⟨ending, hEnding, rfl⟩
  | true =>
      cases left with
      | nil => cases hEnds
      | cons line rest =>
          have hBlank : IsBlank line := by
            simpa [endsBlank] using hEnds
          exact ⟨line, Or.symm hBlank, rfl⟩

/- Entries that do not start with a blank stand apart. -/
theorem standApart_of_startsBlank
    {entries : List Bytes}
    (hEntries : ∀ entry ∈ entries, startsBlank entry = false) :
    StandApart entries := by
  induction entries with
  | nil => trivial
  | cons entry entries ih =>
      rcases List.forall_mem_cons.mp hEntries with
        ⟨hFirst, hLater⟩
      refine ⟨?_, ?_, ih hLater⟩
      · intro hSpace
        rw [startsBlank, hSpace] at hFirst
        exact absurd hFirst (by decide)
      · intro _
        cases entries with
        | nil => rfl
        | cons other entries =>
            exact hLater other List.mem_cons_self

/-
  A completed message is read as the entries that were added
  and the fields it came with, and its body is what it was.
-/
theorem exists_parse_completed
    {added : List (String × String)}
    (hAdded : ∀ field ∈ added, IsWritable field)
    {texts : List Bytes}
    (hTexts : ∀ text ∈ texts, IsLine text)
    {ending : Bytes}
    (hEnding : ending.IsBlankLine) :
    ∃ message,
      Message.parse
          (completed ending added (splitBlock texts).1
            (splitBlock texts).2) =
        .ok message ∧
        message.headers =
          (added.map fun field =>
              ofLines (Utf8.encode (fieldText field) ++
                ending)) ++
            (splitBlock texts).1.map ofField ∧
        (completed ending added (splitBlock texts).1
            (splitBlock texts).2).drop message.bodyOffset =
          bodyAfter (splitBlock texts).2 := by
  have hFields := isEntry_of_mem_splitBlock hTexts
  generalize (splitBlock texts).1 = fields at hFields ⊢
  generalize (splitBlock texts).2 = left
  rcases exists_blankLine hEnding left with
    ⟨line, hLine, hSplit⟩
  generalize hEntries :
    added.map (fun field =>
      Utf8.encode (fieldText field) ++ ending) ++ fields =
      entries
  have hAll :
      ∀ entry ∈ entries,
        IsEntry entry ∧ startsBlank entry = false := by
    intro entry hEntry
    rw [← hEntries] at hEntry
    rcases List.mem_append.mp hEntry with hNew | hOld
    · rcases List.mem_map.mp hNew with ⟨field, hField, rfl⟩
      exact (hAdded field hField).isEntry hEnding
    · exact (hFields entry hOld).2
  have hBytes :
      completed ending added fields left =
        entries.flatten ++ (line ++ bodyAfter left) := by
    rw [← hEntries, ← hSplit, List.flatten_append]
    simp only [completed, List.append_assoc]
  have hHeaders :
      entries.map ofLines =
        (added.map fun field =>
            ofLines (Utf8.encode (fieldText field) ++ ending)) ++
          fields.map ofField := by
    rw [← hEntries, List.map_append, List.map_map]
    congr 1
    apply List.map_congr_left
    intro entry hEntry
    exact ofLines_field (hFields entry hEntry).1
  rw [hBytes, Message.parse_entries (fun entry hEntry =>
      (hAll entry hEntry).1)
    (standApart_of_startsBlank fun entry hEntry =>
      (hAll entry hEntry).2) hLine]
  refine ⟨_, rfl, hHeaders, ?_⟩
  rw [← List.append_assoc, ← List.length_append,
    List.drop_left]

/- Fields that were added are read back as they were. -/
theorem parse_completed
    {added : List (String × String)}
    (hAdded : ∀ field ∈ added, IsAddable field)
    {texts : List Bytes}
    (hTexts : ∀ text ∈ texts, IsLine text)
    {ending : Bytes}
    (hEnding : ending.IsBlankLine) :
    ∃ message,
      Message.parse
          (completed ending added (splitBlock texts).1
            (splitBlock texts).2) =
        .ok message ∧
        message.headers =
          added.map addedHeader ++
              (splitBlock texts).1.map ofField ∧
        (completed ending added (splitBlock texts).1
            (splitBlock texts).2).drop message.bodyOffset =
          bodyAfter (splitBlock texts).2 := by
  rcases exists_parse_completed
      (fun field hField => (hAdded field hField).isWritable)
      hTexts hEnding with
    ⟨message, hParse, hHeaders, hBody⟩
  refine ⟨message, hParse, ?_, hBody⟩
  rw [hHeaders]
  congr 1
  apply List.map_congr_left
  intro field hField
  exact (hAdded field hField).ofLines hEnding

end Smtp

end MailFilter
