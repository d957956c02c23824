import MailFilter.Proofs.Message.ReadBack

/-
  When a message whose header was changed is read again, from
  its header block and its body, with the fields it has.

  Whatever bytes a message was read from, its headers are sound
  but for one: a field without a value that ends where the
  data ends has lost its bytes, and is written as a blank
  line. All other headers are read again one by one if no line
  is taken for the continuation of the one before it and every
  line without a colon ends the way of the message.

  Key definitions include:
    * `Header.IsGiven`
    * `Message.Edit.IsProper`
    * `Message.edited`
    * `Message.fields`
    * `Message.Rereads`
    * `Message.IsRereadable`

  Main statements:
    * `Message.isGiven_of_parse`
    * `Message.rereads_iff_isRereadable`
    * `Message.rereads_edited_iff`
-/

namespace MailFilter

open Bytes

------------------------------------------------------------
-- Headers That Are Read
------------------------------------------------------------

namespace Header

/- A header that is sound, or has lost its bytes. -/
def IsGiven
    (header : Header) : Prop :=
  header.IsSound ∨ header.line = []

/- A line whose name has no colon after it is given. -/
theorem isGiven_of_name
    {lines name : Bytes}
    (hColon : colon ∉ name)
    (hLf : lf ∉ name)
    (hHead :
      name ≠ [] →
        name.head? ≠ some lf ∧ name.head? ≠ some cr)
    (hRead : ofLines lines = ofParts name [] []) :
    (ofLines lines).IsGiven := by
  have hBare : ofLines lines = ofBareLine (name ++ [lf]) := by
    rw [hRead, ofBareLine_append]
    simp only [ofParts, List.append_nil]
    rfl
  rw [hBare]
  cases name with
  | nil => exact Or.inr rfl
  | cons b name =>
      rcases hHead (List.cons_ne_nil b name) with
        ⟨hNotLf, hNotCr⟩
      exact Or.inl (isSound_ofBareLine
        ⟨b :: name, rfl, hColon, hLf⟩ hNotLf hNotCr)

/-
  A name with a colon after it is given, unless only spaces
  follow and then nothing.
-/
theorem isGiven_of_colon
    {name rest : Bytes}
    (hColon : colon ∉ name)
    (hLf : lf ∉ name)
    (hHead :
      (name ++ colon :: rest).head? ≠ some lf ∧
        (name ++ colon :: rest).head? ≠ some cr)
    {text : Bytes}
    (hFolded : text.IsFolded)
    (hText :
      name ++ colon :: rest = text ∨
        name ++ colon :: rest = text ++ [lf]) :
    (ofLines (name ++ colon :: rest)).IsGiven := by
  rcases hText with hText | hText
  · rw [← hText] at hFolded
    have hRest : Bytes.IsFolded rest :=
      hFolded.of_append_right.2
    by_cases hEmpty : rest.dropWhile (· == space) = []
    · right
      have hLost :
          ofLines (name ++ colon :: rest) =
            ⟨nameText name, "", some []⟩ := by
        unfold ofLines
        rw [takeWhile_name hColon hLf (Or.inl rfl)]
        dsimp only
        rw [List.drop_left]
        exact if_pos (by rw [hEmpty]; rfl)
      rw [hLost]
      rfl
    · left
      have hField :
          ofLines (name ++ colon :: rest) =
            ofField (name ++ colon :: rest ++ [lf]) := by
        rw [ofField_append hColon, ofLines_of_colon
            (takeWhile_name hColon hLf (Or.inl rfl) _)
            List.drop_left hEmpty,
          ofParts_text]
      rw [hField]
      have hSame :
          (name ++ colon :: rest ++ [lf]).head? =
            (name ++ colon :: rest).head? := by
        cases name <;> rfl
      apply isSound_ofField ⟨name, rest, rfl, hColon, hLf, hRest⟩
      · rw [hSame]
        exact hHead.1
      · rw [hSame]
        exact hHead.2
  · left
    rcases List.eq_nil_or_concat rest with rfl | ⟨front, b, rfl⟩
    · have hLast := congrArg List.getLast? hText
      rw [List.getLast?_concat, List.getLast?_concat] at hLast
      cases hLast
    · have hSplit :
          (name ++ colon :: front) ++ [b] = text ++ [lf] := by
        rw [← hText]
        simp
      rcases List.append_inj' hSplit rfl with ⟨rfl, hByte⟩
      cases hByte
      have hField :
          Bytes.IsField (name ++ colon :: (front ++ [lf])) :=
        ⟨name, front, by simp, hColon, hLf,
          hFolded.of_append_right.2⟩
      rw [List.concat_eq_append] at hHead ⊢
      rw [ofLines_field hField]
      exact isSound_ofField hField hHead.1 hHead.2

theorem isGiven_ofLines
    {lines text : Bytes}
    (hFolded : text.IsFolded)
    (hText : lines = text ∨ lines = text ++ [lf])
    (hHead : lines.head? ≠ some lf ∧ lines.head? ≠ some cr) :
    (ofLines lines).IsGiven := by
  generalize hName :
    lines.takeWhile (fun b => b != colon && b != lf) = name
  have hParts :
      ∀ b ∈ name, b ≠ colon ∧ b ≠ lf := by
    intro b hMem
    rw [← hName] at hMem
    simpa using List.mem_takeWhile_imp hMem
  have hColon : colon ∉ name := fun h => (hParts _ h).1 rfl
  have hLf : lf ∉ name := fun h => (hParts _ h).2 rfl
  have hWhole : name ++ lines.drop name.length = lines := by
    have hPrefix : name <+: lines := by
      rw [← hName]
      exact List.takeWhile_prefix _
    exact (List.prefix_iff_eq_append.mp hPrefix)
  cases hRest : lines.drop name.length with
  | nil =>
      rw [hRest, List.append_nil] at hWhole
      apply isGiven_of_name hColon hLf
      · rw [hWhole]
        exact fun _ => hHead
      · unfold ofLines
        rw [hName]
        dsimp only
        rw [hRest]
  | cons b rest =>
      rw [hRest] at hWhole
      by_cases hByte : b = colon
      · subst hByte
        rw [← hWhole] at hText hHead ⊢
        exact isGiven_of_colon hColon hLf hHead hFolded hText
      · apply isGiven_of_name hColon hLf
        · intro hSome
          rw [← hWhole, List.head?_append_of_ne_nil _ hSome]
            at hHead
          exact hHead
        · unfold ofLines
          rw [hName]
          dsimp only
          rw [hRest]
          split
          · rename_i hSame
            cases hSame
            exact absurd rfl hByte
          · rfl

/- Whatever is taken where a field can start is given. -/
theorem isGiven_take
    {b : UInt8}
    (hLf : b ≠ lf)
    (hCr : b ≠ cr)
    (rest : Bytes) :
    (take (b :: rest)).1.IsGiven := by
  rcases exists_takeLines_eq (b :: rest) with
    ⟨text, hFolded, hText⟩
  have hWhole := takeLines_append (b :: rest)
  have hShort :=
    length_takeLines_lt (List.cons_ne_nil b rest)
  have hHead : (takeLines (b :: rest)).1.head? = some b := by
    cases hLines : (takeLines (b :: rest)).1 with
    | nil =>
        rw [hLines, List.nil_append] at hWhole
        rw [hWhole] at hShort
        exact absurd hShort (Nat.lt_irrefl _)
    | cons c lines =>
        rw [hLines, List.cons_append] at hWhole
        rw [List.head?_cons, (List.cons.inj hWhole).1]
  apply isGiven_ofLines hFolded hText
  rw [hHead]
  exact ⟨by simpa using hLf, by simpa using hCr⟩

end Header

namespace Message

open Header

/- Whatever bytes a message was read from, its headers are given. -/
theorem isGiven_of_parse
    {raw : Bytes}
    {message : Message}
    (hRead : parse raw = .ok message) :
    ∀ header ∈ message.headers, header.IsGiven := by
  unfold parse at hRead
  split at hRead
  · cases hRead
  · rename_i headers body hFields
    cases hRead
    exact forall_of_fieldsFrom (fun header => header.IsGiven)
      (fun _ rest hLf hCr => isGiven_take hLf hCr rest)
      (by simp) hFields

------------------------------------------------------------
-- Changes
------------------------------------------------------------

/-
  The change is about a printable name, and the value that it
  gives is one that reading can give.
-/
def Edit.IsProper
    (edit : Edit) : Prop :=
  IsPrintable edit.name ∧ ∀ value ∈ edit.value?, IsPlain value

instance
    (edit : Edit) :
    Decidable edit.IsProper := by
  unfold Edit.IsProper
  infer_instance

/- Make changes, one after the other. -/
def edited
    (message : Message)
    (edits : List Edit) : Message :=
  edits.foldl (fun message edit => edit.apply message) message

/- What no change touches is the same after all of them. -/
theorem eq_of_edited
    {α : Type}
    (view : Message → α)
    (hKeeps :
      ∀ (edit : Edit) message,
        view (edit.apply message) = view message)
    (message : Message)
    (edits : List Edit) :
    view (message.edited edits) = view message := by
  induction edits generalizing message with
  | nil => rfl
  | cons edit edits ih =>
      exact (ih (edit.apply message)).trans (hKeeps edit message)

/-
  What holds of the headers before, and of every header that a
  change can put there, holds of the headers after.
-/
theorem forall_of_edited
    (holds : Header → Prop)
    (hNew :
      ∀ name value, IsPrintable name → IsPlain value →
        holds ⟨name, value, none⟩)
    {message : Message}
    (hOld : ∀ header ∈ message.headers, holds header)
    {edits : List Edit}
    (hEdits : ∀ edit ∈ edits, edit.IsProper) :
    ∀ header ∈ (message.edited edits).headers, holds header := by
  induction edits generalizing message with
  | nil => exact hOld
  | cons edit edits ih =>
      rcases List.forall_mem_cons.mp hEdits with
        ⟨hFirst, hLater⟩
      apply ih _ hLater
      intro header hHeader
      rcases mem_headers_apply hFirst.1 hHeader with
        hBefore | ⟨name, value, rfl, hName, hValue⟩
      · exact hOld header hBefore
      · exact hNew name value hName (hFirst.2 value hValue)

------------------------------------------------------------
-- Reading Again
------------------------------------------------------------

/- The names and values of the headers, in order. -/
def fields
    (message : Message) : List (String × String) :=
  message.headers.map fun header => (header.name, header.value)

theorem entries_eq
    (message : Message) :
    message.entries =
      message.fields.map fun (name, value) =>
        (Text.lower name, value) := by
  rw [entries, fields, List.map_map]
  rfl

/-
  The header block is read again, in front of a body, as the
  same names and values in the same order, and up to where it
  ends.
-/
def Rereads
    (message : Message)
    (body : Bytes) : Prop :=
  ∃ read,
    parse (message.block ++ body) = .ok read ∧
      read.fields = message.fields ∧
      read.bodyOffset = message.rebase.bodyOffset

/-
  No header has lost its bytes, no line is taken for the
  continuation of the one before it, and a line that has no
  colon ends the way it did when it was read.
-/
structure IsRereadable
    (message : Message) : Prop where
  bytes : ∀ header ∈ message.headers, header.line ≠ []
  apart : StandApart message.written
  endings :
    ∀ header ∈ message.headers, colon ∉ header.line →
      (header.name.toList.getLast? = some '\r' ↔
        message.crlf = true)

/-
  A header without bytes is written as a blank line, so that
  no more is read than what stands before it.
-/
theorem length_lt_of_line_eq_nil
    {message read : Message}
    (hGiven : ∀ header ∈ message.headers, header.IsGiven)
    (hPlain : ∀ header ∈ message.headers, IsPlain header.value)
    {body : Bytes}
    (hRead : parse (message.block ++ body) = .ok read)
    {lost : Header}
    (hLost : lost ∈ message.headers)
    (hLine : lost.line = []) :
    read.headers.length < message.headers.length := by
  have hWhole := List.takeWhile_append_dropWhile
    (p := fun header : Header => header.line != [])
    (l := message.headers)
  generalize hFront :
    message.headers.takeWhile
      (fun header : Header => header.line != []) =
      front at hWhole
  cases hBack :
      message.headers.dropWhile
        (fun header : Header => header.line != []) with
  | nil =>
      have hSome :=
        List.dropWhile_eq_nil_iff.mp hBack lost hLost
      rw [hLine] at hSome
      exact absurd hSome (by decide)
  | cons first rest =>
      have hFirst : first.line = [] := by
        have hNot := List.head?_dropWhile_not
          (fun header : Header => header.line != [])
          message.headers
        rw [hBack] at hNot
        simpa using hNot
      rw [hBack] at hWhole
      have hEntries :
          ∀ entry ∈ front.map fun header =>
              header.line ++ message.lineEnding,
            IsEntry entry := by
        intro entry hEntry
        rcases List.mem_map.mp hEntry with
          ⟨header, hHeader, rfl⟩
        have hMem : header ∈ message.headers := by
          rw [← hWhole]
          exact List.mem_append_left _ hHeader
        have hBytes : header.line ≠ [] := by
          rw [← hFront] at hHeader
          simpa using List.mem_takeWhile_imp hHeader
        exact isEntry_line
          ((hGiven header hMem).resolve_right hBytes)
          (hPlain header hMem) message
      have hBlock :
          message.block ++ body =
            (front.map fun header =>
                header.line ++ message.lineEnding).flatten ++
              (message.lineEnding ++
                ((rest.map fun header =>
                    header.line ++
                      message.lineEnding).flatten ++
                  (message.lineEnding ++ body))) := by
        rw [block_eq_written, written, ← hWhole]
        simp [hFirst]
      rw [hBlock, parse] at hRead
      split at hRead
      · cases hRead
      · rename_i headers left hFields
        cases hRead
        have hLe := (standApart_of_fieldsFrom hEntries
          message.isBlankLine_lineEnding hFields).1
        rw [← hWhole]
        simp only [List.length_nil, List.length_map,
          List.length_append, List.length_cons] at hLe ⊢
        omega

theorem isSound_of_isGiven
    {message : Message}
    (hGiven : ∀ header ∈ message.headers, header.IsGiven)
    (hBytes : ∀ header ∈ message.headers, header.line ≠ []) :
    message.IsSound := by
  intro header hHeader
  rcases hGiven header hHeader with hSound | hNone
  · exact hSound
  · exact absurd hNone (hBytes header hHeader)

/-
  A message is read again as it is written exactly if nothing
  stands in the way.
-/
theorem rereads_iff_isRereadable
    {message : Message}
    (hGiven : ∀ header ∈ message.headers, header.IsGiven)
    (hPlain : ∀ header ∈ message.headers, IsPlain header.value)
    (body : Bytes) :
    message.Rereads body ↔ message.IsRereadable := by
  constructor
  · rintro ⟨read, hRead, hFields, _⟩
    have hBytes :
        ∀ header ∈ message.headers, header.line ≠ [] := by
      intro header hHeader hLine
      have hFewer := length_lt_of_line_eq_nil hGiven hPlain
        hRead hHeader hLine
      have hLength := congrArg List.length hFields
      simp only [fields, List.length_map] at hLength
      omega
    have hSound := isSound_of_isGiven hGiven hBytes
    have hSame : read.entries = message.entries := by
      rw [entries_eq, entries_eq, hFields]
    have hReads := (exists_perm_iff_readsBack hSound body).mp
      ⟨read, hRead, List.Perm.of_eq hSame⟩
    exact ⟨hBytes, hReads.apart, hReads.endings⟩
  · intro hReads
    have hSound := isSound_of_isGiven hGiven hReads.bytes
    have hParse := parse_entries
      (isEntry_of_mem_written hSound hPlain) hReads.apart
      message.isBlankLine_lineEnding body
    rw [← List.append_assoc, ← block_eq_written] at hParse
    refine ⟨_, hParse, ?_, ?_⟩
    · rw [fields, fields, written, List.map_map, List.map_map]
      apply List.map_congr_left
      intro header hHeader
      rcases readAgain_cases message (hSound header hHeader)
          (hPlain header hHeader) with
        ⟨hValue, ⟨hName, _⟩ | ⟨hNone, hNot, _⟩⟩
      · simp only [Function.comp_apply, hName, hValue]
      · exact absurd (hReads.endings header hHeader hNone) hNot
    · rw [rebase, block_eq_written, List.length_append]

------------------------------------------------------------
-- Messages That Were Changed
------------------------------------------------------------

/-
  A message that was read from any bytes and then changed is
  read again as it is written exactly if nothing stands in the
  way.
-/
theorem rereads_edited_iff
    {raw : Bytes}
    {message : Message}
    (hRead : parse raw = .ok message)
    {edits : List Edit}
    (hEdits : ∀ edit ∈ edits, edit.IsProper) :
    (message.edited edits).Rereads
        (raw.drop message.bodyOffset) ↔
      (message.edited edits).IsRereadable := by
  have hGiven :=
    forall_of_edited (fun header => header.IsGiven)
      (fun _ value hName _ =>
        Or.inl (isSound_of_isPrintable hName value))
      (isGiven_of_parse hRead) hEdits
  have hPlain :=
    forall_of_edited (fun header => IsPlain header.value)
      (fun _ _ _ hValue => hValue)
      (isPlain_of_parse hRead) hEdits
  exact rereads_iff_isRereadable hGiven hPlain _

/- A folded field and a line without a colon. -/
def foldedMail : Bytes :=
  Utf8.encode "Subject: a\r\n\tb\r\nfoo\r\n\r\nbody\r\n"

/- One change of each kind. -/
def eachChange : List Edit :=
  [.append "To" "x@y", .prepend "X-Seen" "1", .set "to" "z@y",
    .remove "X-None"]

theorem rereads_foldedMail :
    ∃ message,
      parse foldedMail = .ok message ∧
        (message.edited eachChange).Rereads
          (foldedMail.drop message.bodyOffset) := by
  have hRead :
      parse foldedMail =
        .ok {
          headers := [
            ⟨"Subject", "a\r\n\tb",
              some (Utf8.encode "Subject: a\r\n\tb")⟩,
            ⟨"foo\r", "", some (Utf8.encode "foo")⟩]
          bodyOffset := 23
          crlf := true } := by
    decide +kernel
  refine ⟨_, hRead, ?_⟩
  apply (rereads_edited_iff hRead (by decide)).mpr
  exact ⟨by decide, by decide, by decide⟩

/- A field without a value where the data ends. -/
def openMail : Bytes :=
  Utf8.encode "A: "

/-
  Such a field loses its bytes, and what is added after it is
  not read again.
-/
theorem not_rereads_openMail :
    ∃ message,
      parse openMail = .ok message ∧
        (∀ edit ∈ [Edit.append "B" "2"], edit.IsProper) ∧
        (message.edited [.append "B" "2"]).fields =
          [("A", ""), ("B", "2")] ∧
        (message.edited [.append "B" "2"]).block =
          Utf8.encode "\nB: 2\n\n" ∧
        ¬ (message.edited [.append "B" "2"]).Rereads
          (openMail.drop message.bodyOffset) := by
  have hRead :
      parse openMail =
        .ok {
          headers := [⟨"A", "", some []⟩]
          bodyOffset := 3
          crlf := false } := by
    decide +kernel
  refine ⟨_, hRead, by decide, by decide, by decide, ?_⟩
  rintro ⟨read, hAgain, hFields, _⟩
  have hNone :
      parse (Utf8.encode "\nB: 2\n\n") =
        .ok { headers := [], bodyOffset := 1 } := by
    decide +kernel
  cases hNone.symm.trans hAgain
  exact absurd hFields (by decide)

end Message

end MailFilter
