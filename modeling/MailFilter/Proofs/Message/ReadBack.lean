import Mathlib.Algebra.Order.BigOperators.Group.List
import MailFilter.Proofs.Message.Sound

/-
  When a header block that was written is read back as the
  headers it was written from.

  Headers count as the same if they have the same names, up
  to case, and the same values, in any order.

  Key definitions include:
    * `Message.entries`
    * `Message.written`
    * `Message.ReadsBack`

  Main statements:
    * `Message.exists_perm_iff_readsBack`
-/

namespace MailFilter

open Bytes

namespace Message

open Header

/- The headers by name in lower case and value. -/
def entries
    (message : Message) : List (String × String) :=
  message.headers.map fun header =>
    (Text.lower header.name, header.value)

/- The lines of the headers with their line endings. -/
def written
    (message : Message) : List Bytes :=
  message.headers.map fun header =>
    header.line ++ message.lineEnding

/-
  What is written is read back: every value is one that
  reading can give, no line is taken for the continuation of
  the one before it, and a line that has no colon ends the
  way it did when it was read.
-/
structure ReadsBack
    (message : Message) : Prop where
  values : ∀ header ∈ message.headers, IsPlain header.value
  apart : StandApart message.written
  endings :
    ∀ header ∈ message.headers, colon ∉ header.line →
      (header.name.toList.getLast? = some '\r' ↔
        message.crlf = true)

theorem isBlankLine_lineEnding
    (message : Message) :
    message.lineEnding.IsBlankLine := by
  unfold lineEnding
  split
  · exact Or.inr rfl
  · exact Or.inl rfl

theorem block_eq_written
    (message : Message) :
    message.block =
      message.written.flatten ++ message.lineEnding := by
  rw [block, written, List.flatMap_def]

------------------------------------------------------------
-- Written Lines
------------------------------------------------------------

/- The name that a line without a colon is read back as. -/
def nameAgain
    (crlf : Bool)
    (name : Bytes) : Bytes :=
  if crlf then dropCr name ++ [cr] else dropCr name

theorem mem_of_mem_dropCr
    {data : Bytes}
    {b : UInt8}
    (hMem : b ∈ dropCr data) :
    b ∈ data := by
  unfold dropCr at hMem
  split at hMem
  · exact List.dropLast_subset _ hMem
  · exact hMem

/- A line without a colon is written as one. -/
theorem bareLine_of_isNameLine
    (message : Message)
    {name : Bytes}
    (hColon : colon ∉ name)
    (hLf : lf ∉ name) :
    (dropCr name ++ message.lineEnding).IsBareLine ∧
      ofLines (dropCr name ++ message.lineEnding) =
        { name := nameText (nameAgain message.crlf name)
          value := ""
          raw := some
            (dropCr (nameAgain message.crlf name)) } := by
  have hWhole :
      dropCr name ++ message.lineEnding =
        nameAgain message.crlf name ++ [lf] := by
    unfold lineEnding nameAgain
    split <;> simp
  have hParts :
      ∀ b, b ≠ cr → b ∉ name →
        b ∉ nameAgain message.crlf name := by
    intro b hCr hNone hMem
    apply hNone
    unfold nameAgain at hMem
    split at hMem
    · rcases List.mem_append.mp hMem with hFront | hBack
      · exact mem_of_mem_dropCr hFront
      · exact absurd (List.mem_singleton.mp hBack) hCr
    · exact mem_of_mem_dropCr hMem
  have hBare :
      (nameAgain message.crlf name ++ [lf]).IsBareLine :=
    ⟨_, rfl, hParts _ (by decide) hColon,
      hParts _ (by decide) hLf⟩
  rw [hWhole, ofLines_bareLine hBare, ofBareLine_append]
  exact ⟨hBare, rfl⟩

/- A sound header with a plain value is written as an entry. -/
theorem isEntry_line
    {header : Header}
    (hSound : header.IsSound)
    (hPlain : IsPlain header.value)
    (message : Message) :
    (header.line ++ message.lineEnding).IsEntry := by
  have hEnding := message.isBlankLine_lineEnding
  rcases hSound.opens with ⟨b, rest, hLine, hLf, hCr⟩
  constructor
  · rcases hSound.form hPlain with hField | hName
    · exact Or.inl
        (hField.isField_append hEnding)
    · rcases hName with ⟨name, hName, hColon, hFeed, _⟩
      rw [hName]
      exact Or.inr
        (bareLine_of_isNameLine message hColon hFeed).1
  · simpa [hLine] using hLf
  · simpa [hLine] using hCr

------------------------------------------------------------
-- Carriage Returns In Names
------------------------------------------------------------

/- How many carriage returns a name has. -/
def countCr
    (name : String) : Nat :=
  name.toList.count '\r'

/- Case does not matter for them. -/
theorem countCr_lower
    (name : String) :
    countCr (Text.lower name) = countCr name := by
  unfold countCr List.count
  rw [Text.toList_lower, List.countP_map]
  apply List.countP_congr
  intro c _
  simp only [Function.comp_apply, beq_iff_eq]
  constructor
  · intro hLower
    have hNat := congrArg Char.toNat hLower
    rw [Text.toNat_toLower] at hNat
    have hReturn : ('\r').toNat = 13 := rfl
    have hSame : c.toNat = ('\r').toNat := by
      split at hNat <;> omega
    rw [← Char.ofNat_toNat c, hSame]
    rfl
  · rintro rfl
    rfl

theorem countCr_nameText_concat
    (name : Bytes) :
    countCr (nameText (name ++ [cr])) =
      countCr (nameText name) + 1 := by
  simp only [countCr, nameText, String.toList_ofList,
    List.map_append, List.count_append]
  rfl

/- A name ends in a carriage return if its bytes do. -/
theorem getLast?_nameText
    (name : Bytes) :
    (nameText name).toList.getLast? = some '\r' ↔
      name.getLast? = some cr := by
  simp only [nameText, String.toList_ofList,
    List.getLast?_map, Option.map_eq_some_iff]
  constructor
  · rintro ⟨b, hLast, hEq⟩
    have hNat := congrArg Char.toNat hEq
    have hSmall := b.toNat_lt
    rw [Utf8.toNat_ofNat_of_isValidChar
      (Or.inl (by omega))] at hNat
    have hReturn : b = cr := UInt8.toNat_inj.mp hNat
    rw [hLast, hReturn]
  · intro hLast
    exact ⟨cr, hLast, rfl⟩

/-
  A name is read back as it was if its line ended the way of
  the message. Otherwise a carriage return is put to it or
  taken from it.
-/
theorem nameAgain_cases
    (crlf : Bool)
    (name : Bytes) :
    (nameAgain crlf name = name ∧
        (name.getLast? = some cr ↔ crlf = true)) ∨
      (crlf = true ∧ name.getLast? ≠ some cr ∧
        countCr (nameText (nameAgain crlf name)) =
          countCr (nameText name) + 1) ∨
      (crlf = false ∧ name.getLast? = some cr ∧
        countCr (nameText name) =
          countCr (nameText (nameAgain crlf name)) + 1) := by
  by_cases hLast : name.getLast? = some cr
  · rcases List.getLast?_eq_some_iff.mp hLast with ⟨front, rfl⟩
    have hDrop : dropCr (front ++ [cr]) = front := by
      simp [dropCr]
    cases crlf with
    | true =>
        refine Or.inl ⟨?_, by simp⟩
        rw [nameAgain, hDrop, if_pos rfl]
    | false =>
        refine Or.inr (Or.inr ⟨rfl, hLast, ?_⟩)
        rw [nameAgain, hDrop, if_neg (by decide),
          countCr_nameText_concat]
  · have hDrop : dropCr name = name := by
      simp [dropCr, hLast]
    cases crlf with
    | true =>
        refine Or.inr (Or.inl ⟨rfl, hLast, ?_⟩)
        rw [nameAgain, hDrop, if_pos rfl,
          countCr_nameText_concat]
    | false =>
        refine Or.inl ⟨?_, by simp [hLast]⟩
        rw [nameAgain, hDrop, if_neg (by decide)]

/-
  How a sound header is read back: as it was, or with a name
  that has one carriage return more or one less.
-/
theorem readAgain_cases
    (message : Message)
    {header : Header}
    (hSound : header.IsSound)
    (hPlain : IsPlain header.value) :
    (ofLines (header.line ++ message.lineEnding)).value =
        header.value ∧
      (((ofLines (header.line ++ message.lineEnding)).name =
            header.name ∧
          (colon ∉ header.line →
            (header.name.toList.getLast? = some '\r' ↔
              message.crlf = true))) ∨
        (colon ∉ header.line ∧
          ¬ (header.name.toList.getLast? = some '\r' ↔
            message.crlf = true) ∧
          if message.crlf then
              countCr (ofLines
                (header.line ++ message.lineEnding)).name =
                countCr header.name + 1
            else
              countCr header.name =
                countCr (ofLines
                  (header.line ++ message.lineEnding)).name +
                  1)) := by
  rcases hSound.form hPlain with hField | hName
  · rw [hField.ofLines_append message.isBlankLine_lineEnding]
    refine ⟨rfl, Or.inl ⟨rfl, ?_⟩⟩
    intro hNone
    rcases hField with ⟨name, text, hLine, _⟩
    rw [hLine] at hNone
    simp at hNone
  · rcases hName with ⟨name, hLine, hColon, hLf, hName, hValue⟩
    have hRead :=
      (bareLine_of_isNameLine message hColon hLf).2
    have hNone : colon ∉ header.line := by
      rw [hLine]
      intro hMem
      exact hColon (mem_of_mem_dropCr hMem)
    rw [hLine, hRead, hName, hValue, getLast?_nameText]
    refine ⟨rfl, ?_⟩
    rw [hLine] at hNone
    rcases nameAgain_cases message.crlf name with
      ⟨hSame, hIff⟩ | ⟨hCrlf, hLast, hCount⟩
        | ⟨hCrlf, hLast, hCount⟩
    · exact Or.inl ⟨by rw [hSame], fun _ => hIff⟩
    · refine Or.inr ⟨hNone, by simp [hCrlf, hLast], ?_⟩
      rw [if_pos hCrlf]
      exact hCount
    · refine Or.inr ⟨hNone, by simp [hCrlf, hLast], ?_⟩
      rw [if_neg (by simp [hCrlf])]
      exact hCount

/- Numbers that add up to the same and are no smaller. -/
theorem eq_of_sum_map_eq
    {α : Type}
    (list : List α)
    {f g : α → Nat}
    (hLe : ∀ a ∈ list, f a ≤ g a)
    (hSum : (list.map g).sum ≤ (list.map f).sum) :
    ∀ a ∈ list, f a = g a := by
  induction list with
  | nil => simp
  | cons a list ih =>
      rcases List.forall_mem_cons.mp hLe with ⟨hFirst, hLater⟩
      have hRest :
          (list.map f).sum ≤ (list.map g).sum :=
        List.sum_le_sum hLater
      simp only [List.map_cons, List.sum_cons] at hSum
      have hTail := ih hLater (by omega)
      exact List.forall_mem_cons.mpr ⟨by omega, hTail⟩

------------------------------------------------------------
-- Reading Back
------------------------------------------------------------

theorem isEntry_of_mem_written
    {message : Message}
    (hSound : message.IsSound)
    (hPlain : ∀ header ∈ message.headers, IsPlain header.value) :
    ∀ entry ∈ message.written, IsEntry entry := by
  intro entry hEntry
  rcases List.mem_map.mp hEntry with ⟨header, hHeader, rfl⟩
  exact isEntry_line (hSound header hHeader)
    (hPlain header hHeader) message

/- A block whose entries stand apart is read as its entries. -/
theorem parse_block
    {message : Message}
    (hSound : message.IsSound)
    (hPlain : ∀ header ∈ message.headers, IsPlain header.value)
    (hApart : StandApart message.written)
    (body : Bytes) :
    ∃ read,
      parse (message.block ++ body) = .ok read ∧
        read.headers = message.written.map ofLines := by
  have hEntries := isEntry_of_mem_written hSound hPlain
  rw [block_eq_written, List.append_assoc]
  exact ⟨_, parse_entries hEntries hApart
    message.isBlankLine_lineEnding body, rfl⟩

/- What is read back if all is as it should be. -/
theorem exists_perm_of_readsBack
    {message : Message}
    (hSound : message.IsSound)
    (hReads : message.ReadsBack)
    (body : Bytes) :
    ∃ read,
      parse (message.block ++ body) = .ok read ∧
        read.entries.Perm message.entries := by
  rcases parse_block hSound hReads.values hReads.apart body with
    ⟨read, hRead, hHeaders⟩
  refine ⟨read, hRead, List.Perm.of_eq ?_⟩
  rw [entries, entries, hHeaders, written, List.map_map,
    List.map_map]
  apply List.map_congr_left
  intro header hHeader
  have hCases := readAgain_cases message
    (hSound header hHeader) (hReads.values header hHeader)
  simp only [Function.comp_apply]
  rcases hCases with ⟨hValue, ⟨hName, _⟩ | ⟨hNone, hNot, _⟩⟩
  · rw [hName, hValue]
  · exact absurd (hReads.endings header hHeader hNone) hNot

/- The values of what is read back are those that are there. -/
theorem isPlain_of_perm
    {message read : Message}
    {raw : Bytes}
    (hRead : parse raw = .ok read)
    (hPerm : read.entries.Perm message.entries) :
    ∀ header ∈ message.headers, IsPlain header.value := by
  intro header hHeader
  have hEntry :
      (Text.lower header.name, header.value) ∈
        read.entries := by
    apply hPerm.symm.subset
    exact List.mem_map_of_mem hHeader
  rcases List.mem_map.mp hEntry with ⟨other, hOther, hEq⟩
  have hPlain := isPlain_of_parse hRead other hOther
  have hValue : other.value = header.value :=
    congrArg Prod.snd hEq
  rw [← hValue]
  exact hPlain

/-
  The names of what is read back have as many carriage
  returns as those that are there.
-/
theorem sum_countCr_of_perm
    {message read : Message}
    (hPerm : read.entries.Perm message.entries) :
    (read.headers.map fun header => countCr header.name).sum =
      (message.headers.map
          fun header => countCr header.name).sum := by
  have hSum := (hPerm.map fun entry => countCr entry.1).sum_nat
  simpa [entries, Function.comp_def, countCr_lower] using hSum

/-
  If as many fields are read back as there are headers, the
  lines of the headers stand apart.
-/
theorem standApart_of_perm
    {message read : Message}
    (hSound : message.IsSound)
    {body : Bytes}
    (hRead : parse (message.block ++ body) = .ok read)
    (hPerm : read.entries.Perm message.entries) :
    StandApart message.written := by
  have hEntries :=
    isEntry_of_mem_written hSound (isPlain_of_perm hRead hPerm)
  rw [block_eq_written, List.append_assoc, parse] at hRead
  split at hRead
  · cases hRead
  · rename_i headers rest hFields
    cases hRead
    have hLength := hPerm.length_eq
    simp only [entries, List.length_map] at hLength
    refine (standApart_of_fieldsFrom hEntries
      message.isBlankLine_lineEnding hFields).2 ?_
    simpa [written] using hLength

/-
  Reading back puts a carriage return to some names, or takes
  one from some, but never both. So if their number is the
  same no name was changed.
-/
theorem countCr_of_sum_eq
    {message : Message}
    (hSound : message.IsSound)
    (hPlain : ∀ header ∈ message.headers, IsPlain header.value)
    (hSum :
      (message.headers.map fun header =>
          countCr (ofLines
            (header.line ++ message.lineEnding)).name).sum =
        (message.headers.map fun header =>
          countCr header.name).sum) :
    ∀ header ∈ message.headers,
      countCr (ofLines (header.line ++ message.lineEnding)).name =
        countCr header.name := by
  have hCases :
      ∀ header ∈ message.headers, _ := fun header hHeader =>
    (readAgain_cases message
      (hSound header hHeader) (hPlain header hHeader)).2
  cases hCrlf : message.crlf with
  | true =>
      have hLe :
          ∀ header ∈ message.headers,
            countCr header.name ≤
              countCr (ofLines
                  (header.line ++ message.lineEnding)).name := by
        intro header hHeader
        rcases hCases header hHeader with
          ⟨hName, _⟩ | ⟨_, _, hCount⟩
        · rw [hName]
        · rw [if_pos hCrlf] at hCount
          omega
      intro header hHeader
      exact (eq_of_sum_map_eq _ hLe hSum.le header hHeader).symm
  | false =>
      have hLe :
          ∀ header ∈ message.headers,
            countCr (ofLines
                (header.line ++ message.lineEnding)).name ≤
              countCr header.name := by
        intro header hHeader
        rcases hCases header hHeader with
          ⟨hName, _⟩ | ⟨_, _, hCount⟩
        · rw [hName]
        · rw [if_neg (by simp [hCrlf])] at hCount
          omega
      exact eq_of_sum_map_eq _ hLe hSum.ge

/-
  A header block that was written from sound headers is read
  back as the same headers exactly if nothing stands in the
  way.
-/
theorem exists_perm_iff_readsBack
    {message : Message}
    (hSound : message.IsSound)
    (body : Bytes) :
    (∃ read,
      parse (message.block ++ body) = .ok read ∧
        read.entries.Perm message.entries) ↔
      message.ReadsBack := by
  constructor
  · rintro ⟨read, hRead, hPerm⟩
    have hPlain := isPlain_of_perm hRead hPerm
    have hApart := standApart_of_perm hSound hRead hPerm
    have hHeaders :
        read.headers = message.written.map ofLines := by
      rcases parse_block hSound hPlain hApart body with
        ⟨other, hOther, hHeaders⟩
      rw [hRead] at hOther
      cases hOther
      exact hHeaders
    have hSum := sum_countCr_of_perm hPerm
    rw [hHeaders, written, List.map_map, List.map_map] at hSum
    have hCount := countCr_of_sum_eq hSound hPlain hSum
    refine ⟨hPlain, hApart, ?_⟩
    intro header hHeader hNone
    have hSame := hCount header hHeader
    rcases (readAgain_cases message (hSound header hHeader)
        (hPlain header hHeader)).2 with
      ⟨_, hIff⟩ | ⟨_, _, hOther⟩
    · exact hIff hNone
    · split at hOther <;> omega
  · intro hReads
    exact exists_perm_of_readsBack hSound hReads body

end Message

end MailFilter
