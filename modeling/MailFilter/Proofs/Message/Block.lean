import MailFilter.Message.Basic
import MailFilter.Proofs.Message.Field

/-
  How a header block is read that is made of entries.

  Entries that stand apart are read one by one. Where they do
  not, an entry is taken for the continuation of the field
  before it, or the block cannot be read, so that fewer
  fields are read than there are entries.

  Key definitions include:
    * `Bytes.IsEntry`
    * `Bytes.StandApart`
    * `Bytes.IsBlankLine`
    * `Message.IsTerminated`

  Main statements:
    * `Message.fieldsFrom_entries`
    * `Message.standApart_of_fieldsFrom`
    * `Message.parse_entries`
-/

namespace MailFilter

open Bytes

------------------------------------------------------------
-- Entries In A Row
------------------------------------------------------------

/- The bytes start with a space or a tab. -/
def Bytes.startsBlank
    (data : Bytes) : Bool :=
  data.head?.any isSpaceOrTab

/-
  A field or a line without a colon. It starts neither like a
  blank line nor with a carriage return.
-/
structure Bytes.IsEntry
    (entry : Bytes) : Prop where
  form : entry.IsField ∨ entry.IsBareLine
  head_ne_lf : entry.head? ≠ some lf
  head_ne_cr : entry.head? ≠ some cr

/-
  No entry starts with a space, and none that follows a field
  starts with a space or a tab.
-/
def Bytes.StandApart : List Bytes → Prop
  | [] => True
  | entry :: entries =>
      entry.head? ≠ some space ∧
        (colon ∈ entry →
          entries.head?.any startsBlank = false) ∧
        StandApart entries

instance
    (entries : List Bytes) :
    Decidable (Bytes.StandApart entries) := by
  induction entries with
  | nil => exact isTrue trivial
  | cons entry entries ih =>
      unfold Bytes.StandApart
      infer_instance

/- The line ending that a header block ends with. -/
def Bytes.IsBlankLine
    (line : Bytes) : Prop :=
  line = [lf] ∨ line = [cr, lf]

namespace Bytes

theorem IsEntry.ne_nil
    {entry : Bytes}
    (hEntry : entry.IsEntry) :
    entry ≠ [] := by
  rcases hEntry.form with
    ⟨name, text, rfl, _⟩ | ⟨name, rfl, _⟩ <;> simp

theorem IsEntry.exists_isFolded
    {entry : Bytes}
    (hEntry : entry.IsEntry) :
    ∃ text : Bytes, entry = text ++ [lf] ∧ text.IsFolded := by
  rcases hEntry.form with hField | hBare
  · exact hField.exists_isFolded
  · exact hBare.exists_isFolded

theorem IsField.colon_mem
    {entry : Bytes}
    (hField : entry.IsField) :
    colon ∈ entry := by
  rcases hField with ⟨name, text, rfl, _⟩
  simp

theorem IsBareLine.colon_not_mem
    {entry : Bytes}
    (hBare : entry.IsBareLine) :
    colon ∉ entry := by
  rcases hBare with ⟨name, rfl, hColon, _⟩
  simp +decide [hColon]

theorem IsEntry.isField
    {entry : Bytes}
    (hEntry : entry.IsEntry)
    (hColon : colon ∈ entry) :
    entry.IsField := by
  rcases hEntry.form with hField | hBare
  · exact hField
  · exact absurd hColon hBare.colon_not_mem

theorem IsEntry.isBareLine
    {entry : Bytes}
    (hEntry : entry.IsEntry)
    (hColon : colon ∉ entry) :
    entry.IsBareLine := by
  rcases hEntry.form with hField | hBare
  · exact absurd hField.colon_mem hColon
  · exact hBare

theorem startsBlank_append
    {front : Bytes}
    (hSome : front ≠ [])
    (back : Bytes) :
    (front ++ back).startsBlank = front.startsBlank := by
  cases front with
  | nil => exact absurd rfl hSome
  | cons b front => rfl

/- What is left when such texts are dropped starts with none. -/
theorem startsBlank_head?_dropWhile
    (texts : List Bytes) :
    (texts.dropWhile startsBlank).head?.any startsBlank =
      false := by
  have hNot := List.head?_dropWhile_not startsBlank texts
  cases hHead : (texts.dropWhile startsBlank).head? with
  | none => rfl
  | some text =>
      rw [hHead] at hNot
      exact hNot

/- Whether entries start with a blank shows in the first one. -/
theorem startsBlank_flatten
    {entries : List Bytes}
    (hEntries : ∀ entry ∈ entries, IsEntry entry)
    {rest : Bytes}
    (hRest : rest.startsBlank = false) :
    startsBlank (entries.flatten ++ rest) =
      entries.head?.any startsBlank := by
  cases entries with
  | nil => exact hRest
  | cons entry entries =>
      have hEntry := hEntries entry List.mem_cons_self
      rw [List.flatten_cons, List.append_assoc,
        startsBlank_append hEntry.ne_nil]
      rfl

theorem IsBlankLine.startsBlank
    {line : Bytes}
    (hBlank : line.IsBlankLine)
    (rest : Bytes) :
    (line ++ rest).startsBlank = false := by
  rcases hBlank with rfl | rfl <;> rfl

end Bytes

namespace Header

/-
  The entries after a field that start with a blank continue
  it.
-/
theorem afterFolds_entries
    {entries : List Bytes}
    (hEntries : ∀ entry ∈ entries, IsEntry entry)
    {rest : Bytes}
    (hRest : rest.startsBlank = false) :
    afterFolds (entries.flatten ++ rest) =
      (entries.dropWhile startsBlank).flatten ++ rest := by
  induction entries with
  | nil => exact afterFolds_of_not_blank hRest
  | cons entry entries ih =>
      rcases List.forall_mem_cons.mp hEntries with
        ⟨hEntry, hLater⟩
      by_cases hBlank : startsBlank entry = true
      · rcases hEntry.exists_isFolded with
          ⟨text, rfl, hFolded⟩
        have hText : text.startsBlank = true := by
          cases text with
          | nil => exact absurd hBlank (by decide)
          | cons b text => exact hBlank
        rw [List.dropWhile_cons_of_pos hBlank, ← ih hLater,
          List.flatten_cons, List.append_assoc,
          List.append_assoc, List.singleton_append]
        exact afterFolds_append_lf hFolded hText _
      · rw [List.dropWhile_cons_of_neg hBlank]
        apply afterFolds_of_not_blank
        have hStart := startsBlank_flatten hEntries hRest
        simpa [startsBlank] using hStart.trans
          (Bool.eq_false_iff.mpr hBlank)

end Header

namespace Message

open Header

------------------------------------------------------------
-- Reading Entries
------------------------------------------------------------

/- A blank line ends a header block. -/
theorem fieldsFrom_blankLine
    (found : List Header)
    {line : Bytes}
    (hBlank : line.IsBlankLine)
    (body : Bytes) :
    fieldsFrom found (line ++ body) =
      .ok (found.reverse, body) := by
  rcases hBlank with rfl | rfl
  · rw [List.singleton_append]
    unfold fieldsFrom
    rfl
  · rw [List.cons_append, List.singleton_append]
    unfold fieldsFrom
    rfl

/- What starts like an entry is read as one. -/
theorem fieldsFrom_entry
    (found : List Header)
    {entry : Bytes}
    (hEntry : entry.IsEntry)
    (hSpace : entry.head? ≠ some space)
    (rest : Bytes) :
    fieldsFrom found (entry ++ rest) =
      fieldsFrom ((take (entry ++ rest)).1 :: found)
          (take (entry ++ rest)).2 := by
  cases entry with
  | nil => exact absurd rfl hEntry.ne_nil
  | cons b entry =>
      have hLf : (b == lf) = false := by
        simpa using hEntry.head_ne_lf
      have hCr : (b == cr) = false := by
        simpa using hEntry.head_ne_cr
      have hNone : (b == space) = false := by
        simpa using hSpace
      rw [List.cons_append]
      conv_lhs => unfold fieldsFrom
      simp only [hLf, hCr, hNone, Bool.false_eq_true, if_false]

/- What starts with a space is no header block. -/
theorem fieldsFrom_space
    (found : List Header)
    {data : Bytes}
    (hSpace : data.head? = some space) :
    fieldsFrom found data = .error .overhang := by
  cases data with
  | nil => cases hSpace
  | cons b data =>
      cases hSpace
      unfold fieldsFrom
      rfl

/- An entry is taken alone unless something continues it. -/
theorem take_entry
    {entry : Bytes}
    (hEntry : entry.IsEntry)
    {rest : Bytes}
    (hRest : colon ∈ entry → rest.startsBlank = false) :
    take (entry ++ rest) = (ofLines entry, rest) := by
  by_cases hColon : colon ∈ entry
  · rw [take, takeLines_field (hEntry.isField hColon)
      (hRest hColon)]
  · rw [take, takeLines_bareLine (hEntry.isBareLine hColon)]

/- A field is taken with the entries that continue it. -/
theorem snd_take_entry
    {entry : Bytes}
    (hEntry : entry.IsEntry)
    (hColon : colon ∈ entry)
    {entries : List Bytes}
    (hEntries : ∀ entry ∈ entries, IsEntry entry)
    {rest : Bytes}
    (hRest : rest.startsBlank = false) :
    (take (entry ++ (entries.flatten ++ rest))).2 =
      (entries.dropWhile startsBlank).flatten ++ rest := by
  rw [take, snd_takeLines_field (hEntry.isField hColon),
    afterFolds_entries hEntries hRest]

/- What can be read does not start with a space. -/
theorem head?_ne_space_of_fieldsFrom
    {found read : List Header}
    {entry rest body : Bytes}
    (hRead : fieldsFrom found (entry ++ rest) = .ok (read, body)) :
    entry.head? ≠ some space := by
  intro hSpace
  rw [fieldsFrom_space found (by rw [List.head?_append, hSpace]; rfl)]
    at hRead
  cases hRead

/- Entries that stand apart are read one by one. -/
theorem fieldsFrom_entries
    {entries : List Bytes}
    (hEntries : ∀ entry ∈ entries, IsEntry entry)
    (hApart : StandApart entries)
    {rest : Bytes}
    (hRest : rest.startsBlank = false)
    (found : List Header) :
    fieldsFrom found (entries.flatten ++ rest) =
      fieldsFrom ((entries.map ofLines).reverse ++ found)
          rest := by
  induction entries generalizing found with
  | nil => rfl
  | cons entry entries ih =>
      rcases List.forall_mem_cons.mp hEntries with
        ⟨hEntry, hLater⟩
      have hTake :
          take (entry ++ (entries.flatten ++ rest)) =
            (ofLines entry, entries.flatten ++ rest) := by
        apply take_entry hEntry
        intro hColon
        rw [startsBlank_flatten hLater hRest]
        exact hApart.2.1 hColon
      rw [List.flatten_cons, List.append_assoc,
        fieldsFrom_entry found hEntry hApart.1, hTake,
        ih hLater hApart.2.2]
      simp

/-
  Entries are never read as more fields than they are, and as
  fewer unless they stand apart.
-/
theorem standApart_of_fieldsFrom
    {entries : List Bytes}
    (hEntries : ∀ entry ∈ entries, IsEntry entry)
    {line : Bytes}
    (hLine : line.IsBlankLine)
    {body rest : Bytes}
    {found read : List Header}
    (hRead :
      fieldsFrom found (entries.flatten ++ (line ++ body)) =
        .ok (read, rest)) :
    read.length ≤ found.length + entries.length ∧
      (read.length = found.length + entries.length →
        StandApart entries) := by
  induction hLength : entries.length
      using Nat.strong_induction_on
    generalizing entries found with
  | _ length ih =>
    subst hLength
    cases entries with
    | nil =>
        rw [List.flatten_nil, List.nil_append,
          fieldsFrom_blankLine found hLine] at hRead
        cases hRead
        exact ⟨by simp, fun _ => trivial⟩
    | cons entry entries =>
        rcases List.forall_mem_cons.mp hEntries with
          ⟨hEntry, hLater⟩
        have hStart := hLine.startsBlank body
        rw [List.flatten_cons, List.append_assoc] at hRead
        have hSpace := head?_ne_space_of_fieldsFrom hRead
        rw [fieldsFrom_entry found hEntry hSpace] at hRead
        by_cases hColon : colon ∈ entry
        · have hSuffix := List.dropWhile_suffix startsBlank
            (l := entries)
          have hKept :
              ∀ other ∈ entries.dropWhile startsBlank,
                IsEntry other := by
            intro other hOther
            exact hLater other (hSuffix.subset hOther)
          have hShort := hSuffix.length_le
          rw [snd_take_entry hEntry hColon hLater hStart] at hRead
          rcases ih _ (Nat.lt_succ_of_le hShort) hKept hRead rfl
            with ⟨hLe, hApart⟩
          simp only [List.length_cons] at hLe hApart ⊢
          refine ⟨by omega, ?_⟩
          intro hEq
          -- Nothing was passed over, so no entry is blank-led.
          have hAll :
              entries.dropWhile startsBlank = entries :=
            hSuffix.eq_of_length (by omega)
          refine ⟨hSpace, ?_, ?_⟩
          · intro _
            have hFirst := startsBlank_head?_dropWhile entries
            rwa [hAll] at hFirst
          · rw [hAll] at hApart
            exact hApart (by omega)
        · have hRest :
              colon ∈ entry →
                startsBlank (entries.flatten ++ (line ++ body)) =
                  false :=
            fun hMem => absurd hMem hColon
          have hTake := take_entry hEntry hRest
          rw [hTake] at hRead
          rcases ih _ (Nat.lt_succ_self _) hLater hRead rfl with
            ⟨hLe, hApart⟩
          simp only [List.length_cons] at hLe hApart ⊢
          refine ⟨by omega, ?_⟩
          intro hEq
          exact ⟨hSpace, fun hMem => absurd hMem hColon,
            hApart (by omega)⟩

------------------------------------------------------------
-- Terminated Messages
------------------------------------------------------------

/-
  The header block of a message is made of entries and ends
  with a blank line.
-/
def IsTerminated
    (raw : Bytes) : Prop :=
  ∃ (entries : List Bytes) (line body : Bytes),
    raw = entries.flatten ++ (line ++ body) ∧
      (∀ entry ∈ entries, IsEntry entry) ∧
      StandApart entries ∧ line.IsBlankLine

/- A block of entries that stand apart is read as them. -/
theorem parse_entries
    {entries : List Bytes}
    (hEntries : ∀ entry ∈ entries, IsEntry entry)
    (hApart : StandApart entries)
    {line : Bytes}
    (hLine : line.IsBlankLine)
    (body : Bytes) :
    parse (entries.flatten ++ (line ++ body)) =
      .ok {
        headers := entries.map ofLines
        bodyOffset := entries.flatten.length + line.length
        crlf := endsInCrlf
          (splitLine
            (entries.flatten ++ (line ++ body))).1 } := by
  unfold parse
  rw [fieldsFrom_entries hEntries hApart
      (hLine.startsBlank body),
    fieldsFrom_blankLine _ hLine]
  simp only [List.append_nil, List.reverse_reverse]
  congr 2
  simp only [List.length_append]
  omega

end Message

end MailFilter
