import MailFilter.Proofs.Message.Rewrite
import MailFilter.Proofs.Message.Values
import MailFilter.Proofs.Text.Lines

/-
  Headers that nobody changed are written as they were read.

  If all lines of a header block end in the same way and the
  last one is blank, the bytes that a header keeps and the line
  ending of the message are the lines that the header was read
  from. So the header block of a message that was read is the
  one it was read from, and changes of the headers leave the
  bytes of all others, in their order.

  Key definitions include:
    * `Header.IsGroup`
    * `Bytes.IsUniform`
    * `Message.Edit.allSpare`

  Main statements:
    * `Message.exists_groups_of_fieldsFrom`
    * `Header.line_of_isGroup`
    * `Message.exists_entries_of_isUniform`
    * `Message.filter_headers_edited`
    * `Message.verbatim_of_isUniform`
-/

namespace MailFilter

open Bytes

------------------------------------------------------------
-- Lines Of A Header
------------------------------------------------------------

/-
  The lines that are taken for one header: a line that is not
  blank, and lines that continue it, if it has a colon.
-/
inductive Header.IsGroup : List Bytes → Prop
  | mk {b : UInt8} {first : Bytes} {folds : List Bytes}
      (ne_lf : b ≠ lf)
      (ne_cr : b ≠ cr)
      (blank : ∀ fold ∈ folds, startsBlank fold = true)
      (named : folds ≠ [] → colon ∈ b :: first) :
      IsGroup ((b :: first) :: folds)

namespace Header

/- A line starts with the first byte. -/
theorem exists_splitLine_cons
    (b : UInt8)
    (rest : Bytes) :
    ∃ line, (splitLine (b :: rest)).1 = b :: line := by
  by_cases hMem : lf ∈ b :: rest
  · rcases List.eq_append_cons_of_mem hMem with
      ⟨front, back, hSplit, hFront⟩
    rw [hSplit, splitLine_append_lf hFront]
    cases front with
    | nil =>
        cases hSplit
        exact ⟨[], rfl⟩
    | cons c front =>
        cases hSplit
        exact ⟨front ++ [lf], rfl⟩
  · rw [splitLine_of_lf_not_mem hMem]
    exact ⟨rest, rfl⟩

/- The lines that continue a field are the next ones. -/
theorem exists_folds
    (found : List Bytes)
    (data : Bytes) :
    ∃ folds,
      (∀ fold ∈ folds, startsBlank fold = true) ∧
        (takeFolds found data).1 =
          found.reverse.flatten ++ folds.flatten ∧
        lines data =
          folds ++ lines (takeFolds found data).2 := by
  fun_induction takeFolds found data with
  | case1 found => exact ⟨[], by simp, by simp, rfl⟩
  | case2 found b rest hBlank ih =>
      rcases ih with ⟨folds, hFolds, hTaken, hLines⟩
      rcases exists_splitLine_cons b rest with ⟨line, hLine⟩
      refine ⟨(splitLine (b :: rest)).1 :: folds, ?_, ?_, ?_⟩
      · refine List.forall_mem_cons.mpr ⟨?_, hFolds⟩
        rw [hLine]
        exact hBlank
      · rw [hTaken]
        simp
      · rw [lines_eq_splitLine (List.cons_ne_nil b rest), hLines]
        rfl
  | case3 found b rest hNot => exact ⟨[], by simp, by simp, rfl⟩

/- What is taken for a header is a group of lines. -/
theorem exists_group
    {b : UInt8}
    (hLf : b ≠ lf)
    (hCr : b ≠ cr)
    (rest : Bytes) :
    ∃ group,
      IsGroup group ∧
        (takeLines (b :: rest)).1 = group.flatten ∧
        lines (b :: rest) =
          group ++ lines (takeLines (b :: rest)).2 := by
  have hLines := lines_eq_splitLine (List.cons_ne_nil b rest)
  rcases exists_splitLine_cons b rest with ⟨first, hFirst⟩
  unfold takeLines
  rw [hLines, hFirst]
  split
  · rename_i hColon
    rcases exists_folds [b :: first] (splitLine (b :: rest)).2
      with ⟨folds, hFolds, hTaken, hLater⟩
    refine ⟨(b :: first) :: folds, .mk hLf hCr hFolds ?_, ?_, ?_⟩
    · intro _
      simpa using hColon
    · rw [hTaken]
      simp
    · rw [hLater]
      rfl
  · exact ⟨[b :: first], .mk hLf hCr (by simp) (by simp),
      by simp [hFirst], rfl⟩

end Header

namespace Message

open Header

/-
  The lines of what is read are the lines of the headers, then
  a blank line and the lines of the body, unless the headers go
  up to the end.
-/
theorem exists_groups_of_fieldsFrom
    {found read : List Header}
    {data body : Bytes}
    (hRead : fieldsFrom found data = .ok (read, body)) :
    ∃ (groups : List (List Bytes)) (ending : Bytes),
      (∀ group ∈ groups, IsGroup group) ∧
        lines data = groups.flatten ++ lines (ending ++ body) ∧
        read =
          found.reverse ++
            groups.map (fun group => ofLines group.flatten) ∧
        (ending.IsBlankLine ∨ ending = [] ∧ body = []) := by
  fun_induction fieldsFrom found data with
  | case1 found =>
      cases hRead
      exact ⟨[], [], by simp, rfl, by simp, Or.inr ⟨rfl, rfl⟩⟩
  | case2 found b rest hLf =>
      cases hRead
      rw [beq_iff_eq.mp hLf]
      exact ⟨[], [lf], by simp, rfl, by simp,
        Or.inl (Or.inl rfl)⟩
  | case3 found b hLf hCr body =>
      cases hRead
      rw [beq_iff_eq.mp hCr]
      exact ⟨[], [cr, lf], by simp, rfl, by simp,
        Or.inl (Or.inr rfl)⟩
  | case4 => cases hRead
  | case5 => cases hRead
  | case6 found b rest hLf hCr hSpace ih =>
      rcases exists_group (by simpa using hLf)
          (by simpa using hCr) rest with
        ⟨group, hGroup, hTaken, hLines⟩
      rcases ih hRead with
        ⟨groups, ending, hGroups, hLater, hHeaders, hEnding⟩
      refine ⟨group :: groups, ending,
        List.forall_mem_cons.mpr ⟨hGroup, hGroups⟩, ?_, ?_,
        hEnding⟩
      · have hRest :
            (take (b :: rest)).2 = (takeLines (b :: rest)).2 := rfl
        rw [hLines, ← hRest, hLater]
        simp
      · rw [hHeaders, take, hTaken]
        simp

end Message

------------------------------------------------------------
-- Uniform Blocks
------------------------------------------------------------

/-
  All lines of a block end in the same way, the last one is
  nothing but that ending, and there is no other carriage
  return.
-/
structure Bytes.IsUniform
    (ending block : Bytes) : Prop where
  blank : ending.IsBlankLine
  lines :
    ∀ line ∈ lines block,
      ∃ content : Bytes,
        line = content ++ ending ∧ cr ∉ content
  last : (Bytes.lines block).getLast? = some ending

namespace Bytes

variable {ending content : Bytes}

theorem IsBlankLine.isLine
    (hBlank : ending.IsBlankLine) :
    ending.IsLine := by
  rcases hBlank with rfl | rfl
  · exact ⟨[], rfl, by decide⟩
  · exact ⟨[cr], rfl, by decide⟩

/- What stands before the ending of a line has no line feed. -/
theorem IsLine.lf_not_mem
    (hLine : IsLine (content ++ ending))
    (hBlank : ending.IsBlankLine) :
    lf ∉ content := by
  rcases hLine with ⟨front, hFront, hLf⟩
  rcases hBlank with rfl | rfl
  · rw [List.append_cancel_right hFront]
    exact hLf
  · have hSplit : content ++ [cr] ++ [lf] = front ++ [lf] := by
      simpa using hFront
    rw [← List.append_cancel_right hSplit] at hLf
    exact fun hMem => hLf (List.mem_append_left _ hMem)

/- Whether a line ends as on the wire shows in its ending. -/
theorem endsInCrlf_append
    (hBlank : ending.IsBlankLine)
    (hCr : cr ∉ content) :
    (if endsInCrlf (content ++ ending) then crlf else [lf]) =
      ending := by
  rcases hBlank with rfl | rfl
  · rw [if_neg]
    intro hEnds
    rw [endsInCrlf, List.isSuffixOf_iff_suffix] at hEnds
    rcases hEnds with ⟨front, hFront⟩
    have hSplit : front ++ [cr] ++ [lf] = content ++ [lf] := by
      simpa using hFront
    rw [← List.append_cancel_right hSplit] at hCr
    exact hCr (by simp)
  · rw [if_pos]
    rw [endsInCrlf, List.isSuffixOf_iff_suffix]
    exact List.suffix_append content _

end Bytes

namespace Header

variable {ending : Bytes}
variable {group : List Bytes}

/- No line of a group starts like a blank one, or is one. -/
theorem IsGroup.exists_cons
    (hGroup : IsGroup group)
    {line : Bytes}
    (hMem : line ∈ group) :
    ∃ b rest, line = b :: rest ∧ b ≠ lf ∧ b ≠ cr := by
  cases hGroup with
  | @mk b first folds hLf hCr hBlank hNamed =>
      rcases List.mem_cons.mp hMem with rfl | hFold
      · exact ⟨b, first, rfl, hLf, hCr⟩
      · have hStart := hBlank line hFold
        cases line with
        | nil => exact absurd hStart (by decide)
        | cons c rest =>
            refine ⟨c, rest, rfl, ?_, ?_⟩
            · rintro rfl
              cases hStart
            · rintro rfl
              cases hStart

theorem IsGroup.not_isBlankLine
    (hGroup : IsGroup group)
    {line : Bytes}
    (hMem : line ∈ group) :
    ¬ line.IsBlankLine := by
  rcases hGroup.exists_cons hMem with ⟨b, rest, rfl, hLf, hCr⟩
  rintro (hBlank | hBlank)
  · exact hLf (List.cons.inj hBlank).1
  · exact hCr (List.cons.inj hBlank).1

/-
  The lines of a header up to the ending of the last one,
  which is not blank.
-/
theorem IsGroup.exists_flatten_eq
    (hGroup : IsGroup group)
    (hEnding : ending.IsBlankLine)
    (hLines : ∀ line ∈ group, Bytes.IsLine line)
    (hUniform :
      ∀ line ∈ group,
        ∃ content : Bytes,
          line = content ++ ending ∧ cr ∉ content) :
    ∃ front : Bytes,
      group.flatten = front ++ ending ∧
        ∀ b ∈ front.getLast?, isLineEnd b = false := by
  rcases List.eq_nil_or_concat group with
    rfl | ⟨before, last, rfl⟩
  · cases hGroup
  · rw [List.concat_eq_append] at hGroup hLines hUniform ⊢
    have hMem : last ∈ before ++ [last] := by simp
    rcases hUniform last hMem with ⟨content, rfl, hCr⟩
    have hLf := (hLines _ hMem).lf_not_mem hEnding
    have hSome : content ≠ [] := by
      rintro rfl
      exact hGroup.not_isBlankLine hMem hEnding
    refine ⟨before.flatten ++ content, by simp, ?_⟩
    intro b hLast
    rw [List.getLast?_append_of_ne_nil _ hSome] at hLast
    have hByte := List.mem_of_getLast? hLast
    simp only [isLineEnd, Bool.or_eq_false_iff,
      beq_eq_false_iff_ne]
    constructor
    · rintro rfl
      exact hCr hByte
    · rintro rfl
      exact hLf hByte

/- A byte that ends no line is not dropped with line endings. -/
theorem dropLineEnds_append_blankLine
    (hEnding : ending.IsBlankLine)
    {front : Bytes}
    (hLast : ∀ b ∈ front.getLast?, isLineEnd b = false) :
    dropLineEnds (front ++ ending) = front := by
  rw [dropLineEnds_append hLast]
  rcases hEnding with rfl | rfl <;> exact List.append_nil front

/- A line without a colon keeps what stands before its ending. -/
theorem line_ofBareLine_append
    (hEnding : ending.IsBlankLine)
    {content : Bytes}
    (hCr : cr ∉ content) :
    (ofBareLine (content ++ ending)).line = content := by
  rcases hEnding with rfl | rfl
  · rw [ofBareLine_append]
    change dropCr content = content
    rw [dropCr, if_neg]
    simp only [beq_iff_eq]
    exact fun hLast => hCr (List.mem_of_getLast? hLast)
  · have hSplit : content ++ [cr, lf] = content ++ [cr] ++ [lf] := by
      simp
    rw [hSplit, ofBareLine_append]
    change dropCr (content ++ [cr]) = content
    simp [dropCr]

/-
  The bytes of a header with the line ending are the lines it
  was read from.
-/
theorem line_of_isGroup
    (hGroup : IsGroup group)
    (hEnding : ending.IsBlankLine)
    (hLines : ∀ line ∈ group, Bytes.IsLine line)
    (hUniform :
      ∀ line ∈ group,
        ∃ content : Bytes,
          line = content ++ ending ∧ cr ∉ content) :
    (ofLines group.flatten).line ++ ending = group.flatten := by
  rcases hGroup.exists_flatten_eq hEnding hLines hUniform with
    ⟨front, hFlatten, hLast⟩
  cases hGroup with
  | @mk b first folds hLf hCr hBlank hNamed =>
      rcases List.forall_mem_cons.mp hLines with
        ⟨hFirst, hFolds⟩
      by_cases hColon : colon ∈ b :: first
      · rcases List.eq_append_cons_of_mem hColon with
          ⟨name, text, hSplit, hName⟩
        rw [hSplit] at hFirst hFlatten ⊢
        have hField :=
          Smtp.isField_of_folds hName hFirst hFolds hBlank
        rw [ofLines_field hField, hFlatten]
        change dropLineEnds (front ++ ending) ++ ending = _
        rw [dropLineEnds_append_blankLine hEnding hLast]
      · have hNone : folds = [] := by
          by_contra hSome
          exact hColon (hNamed hSome)
        subst hNone
        rcases hUniform (b :: first) List.mem_cons_self with
          ⟨content, hContent, hClean⟩
        rcases hFirst with ⟨line, hLine, hFeed⟩
        have hBare : Bytes.IsBareLine (b :: first) := by
          refine ⟨line, hLine, ?_, hFeed⟩
          rw [hLine] at hColon
          exact fun hMem => hColon (List.mem_append_left _ hMem)
        rw [List.flatten_cons, List.flatten_nil, List.append_nil,
          ofLines_bareLine hBare, hContent,
          line_ofBareLine_append hEnding hClean]

end Header

namespace Message

open Header

variable {raw ending : Bytes}
variable {message : Message}

/-
  If the header block of a message that was read is uniform it
  is made of the lines of the headers and a blank line, which
  is the line ending of the message.
-/
theorem exists_groups_of_isUniform
    (hParse : parse raw = .ok message)
    (hUniform :
      Bytes.IsUniform ending (raw.take message.bodyOffset)) :
    ∃ groups : List (List Bytes),
      (∀ group ∈ groups, IsGroup group) ∧
        (∀ line ∈ groups.flatten, Bytes.IsLine line) ∧
        lines (raw.take message.bodyOffset) =
          groups.flatten ++ [ending] ∧
        message.headers =
          groups.map (fun group => ofLines group.flatten) ∧
        message.lineEnding = ending := by
  unfold parse at hParse
  split at hParse
  · cases hParse
  rename_i headers body hFields
  cases hParse
  rcases exists_groups_of_fieldsFrom hFields with
    ⟨groups, last, hGroups, hLines, hHeaders, hLast⟩
  have hRaw : raw = groups.flatten.flatten ++ last ++ body := by
    rw [← flatten_lines raw, hLines, List.flatten_append,
      flatten_lines, List.append_assoc]
  have hBlock :
      raw.take (raw.length - body.length) =
        groups.flatten.flatten ++ last := by
    rw [hRaw, List.length_append, Nat.add_sub_cancel,
      List.take_left]
  dsimp only at hUniform ⊢
  rw [hBlock] at hUniform ⊢
  rcases hLast with hBlank | ⟨rfl, rfl⟩
  · rw [lines_cons hBlank.isLine] at hLines
    have hFeeds := isLine_of_lines_eq hLines
    have hOnly := lines_cons hBlank.isLine []
    rw [List.append_nil] at hOnly
    have hAll :
        lines (groups.flatten.flatten ++ last) =
          groups.flatten ++ [last] := by
      rw [lines_flatten_append hFeeds, hOnly]
      rfl
    have hSame := hUniform.last
    rw [hAll, List.getLast?_concat, Option.some_inj] at hSame
    subst hSame
    refine ⟨groups, hGroups, hFeeds, hAll, hHeaders, ?_⟩
    -- The first line of the message is one of the block.
    have hFirst := fst_splitLine_mem hLines
    rw [← hAll] at hFirst
    rcases hUniform.lines _ hFirst with ⟨content, hLine, hCr⟩
    rw [lineEnding, hLine]
    exact endsInCrlf_append hBlank hCr
  · -- Headers that go up to the end do not end in a blank line.
    have hSame := hUniform.last
    have hNone : lines ([] ++ []) = [] := rfl
    rw [List.append_nil] at hRaw hSame
    rw [List.append_nil] at hRaw
    rw [← hRaw, hLines, hNone, List.append_nil] at hSame
    rcases List.mem_flatten.mp (List.mem_of_getLast? hSame) with
      ⟨group, hGroup, hMem⟩
    exact absurd hUniform.blank
      ((hGroups group hGroup).not_isBlankLine hMem)

/-
  The headers are read from parts of the block, and are written
  as these.
-/
theorem exists_entries_of_isUniform
    (hParse : parse raw = .ok message)
    (hUniform :
      Bytes.IsUniform ending (raw.take message.bodyOffset)) :
    ∃ entries : List Bytes,
      raw.take message.bodyOffset = entries.flatten ++ ending ∧
        message.headers = entries.map ofLines ∧
        (∀ entry ∈ entries,
          (ofLines entry).line ++ ending = entry) ∧
        message.lineEnding = ending := by
  rcases exists_groups_of_isUniform hParse hUniform with
    ⟨groups, hGroups, hFeeds, hLines, hHeaders, hEnding⟩
  refine ⟨groups.map List.flatten, ?_, ?_, ?_, hEnding⟩
  · rw [← flatten_lines (raw.take message.bodyOffset), hLines]
    simp [List.flatten_flatten]
  · rw [hHeaders, List.map_map]
    rfl
  · intro entry hEntry
    rcases List.mem_map.mp hEntry with ⟨group, hGroup, rfl⟩
    have hIn :
        ∀ line ∈ group, line ∈ groups.flatten :=
      fun line hLine =>
        List.mem_flatten.mpr ⟨group, hGroup, hLine⟩
    apply line_of_isGroup (hGroups group hGroup) hUniform.blank
    · exact fun line hLine => hFeeds line (hIn line hLine)
    · intro line hLine
      apply hUniform.lines
      rw [hLines]
      exact List.mem_append_left _ (hIn line hLine)

------------------------------------------------------------
-- Changes
------------------------------------------------------------

namespace Edit

instance
    (name : String) :
    (edit : Edit) → Decidable (edit.Spares name)
  | append _ _ => isTrue trivial
  | prepend _ _ => isTrue trivial
  | set other _ =>
      inferInstanceAs (Decidable (Text.sameName other name = false))
  | remove other =>
      inferInstanceAs (Decidable (Text.sameName other name = false))

/- None of the changes sets or removes fields of the name. -/
def allSpare
    (edits : List Edit)
    (name : String) : Bool :=
  edits.all fun edit => edit.Spares name

end Edit

/- Only headers that were read keep their bytes. -/
theorem filter_headers_setHeader
    (message : Message)
    (name value : String) :
    (message.setHeader name value).headers.filter (·.raw.isSome) =
      (message.headers.filter (·.raw.isSome)).filter
          (!·.isNamed name) := by
  rw [List.filter_comm]
  rcases message.setHeader_cases name value with
    ⟨hNone, hSet⟩
      | ⟨front, first, rest, hWhole, hFront, hFirst, hSet⟩
  · rw [hNone, hSet]
    simp [appendHeader]
  · have hKept :
        message.headers.filter (!·.isNamed name) =
          front ++ rest.filter (!·.isNamed name) := by
      rw [hWhole, List.filter_append, hFront,
        List.filter_cons_of_neg]
      simp [hFirst]
    rw [hKept, hSet]
    simp [Header.setValue]

/-
  The headers that keep their bytes are those that kept them
  before and are not what the change is about.
-/
theorem filter_headers_apply
    (edit : Edit)
    (message : Message) :
    (edit.apply message).headers.filter (·.raw.isSome) =
      (message.headers.filter (·.raw.isSome)).filter
          fun header => edit.Spares header.name := by
  have hNamed :
      ∀ name,
        (fun header : Header =>
            decide (Text.sameName name header.name = false)) =
          (!·.isNamed name) := by
    intro name
    funext header
    rw [Header.isNamed, Text.sameName_comm header.name name]
    cases Text.sameName name header.name <;> rfl
  cases edit with
  | append name value =>
      refine Eq.trans ?_ (List.filter_true _).symm
      simp [Edit.apply, appendHeader]
  | prepend name value =>
      refine Eq.trans ?_ (List.filter_true _).symm
      simp [Edit.apply, prependHeader]
  | set name value =>
      rw [Edit.apply, filter_headers_setHeader]
      exact congrArg (List.filter · _) (hNamed name).symm
  | remove name =>
      rw [Edit.apply, removeHeader, List.filter_comm]
      exact congrArg (List.filter · _) (hNamed name).symm

/- So it is with any number of changes. -/
theorem filter_headers_edited
    (edits : List Edit)
    (message : Message) :
    (message.edited edits).headers.filter (·.raw.isSome) =
      (message.headers.filter (·.raw.isSome)).filter
          fun header => Edit.allSpare edits header.name := by
  induction edits generalizing message with
  | nil => simp [edited, Edit.allSpare]
  | cons edit edits ih =>
      change ((edit.apply message).edited edits).headers.filter
        (·.raw.isSome) = _
      rw [ih, filter_headers_apply, List.filter_filter]
      apply List.filter_congr
      intro header _
      rw [Edit.allSpare, Edit.allSpare, List.all_cons,
        Bool.and_comm]

/- No change makes the message end its lines in another way. -/
theorem lineEnding_edit
    (edit : Edit)
    (message : Message) :
    (edit.apply message).lineEnding = message.lineEnding := by
  cases edit with
  | append name value => rfl
  | prepend name value => rfl
  | set name value =>
      change (message.setHeader name value).lineEnding = _
      rcases message.setHeader_cases name value with
        ⟨_, hSet⟩ | ⟨_, _, _, _, _, _, hSet⟩
      · rw [hSet]
        rfl
      · rw [hSet]
        rfl
  | remove name => rfl

/- What was read keeps its bytes. -/
theorem isSome_raw_ofLines
    (lines : Bytes) :
    (ofLines lines).raw.isSome = true := by
  unfold ofLines
  dsimp only
  split
  · split <;> rfl
  · rfl

/-
  The header block of a message that was read is written as it
  was read if its lines all end in the same way. It is made of
  the lines of each header and a blank line. After any changes
  the headers that were neither set nor removed nor added are
  written as the lines that they were read from, in the order
  in which they were read.
-/
theorem verbatim_of_isUniform
    (hParse : parse raw = .ok message)
    (hUniform :
      Bytes.IsUniform ending (raw.take message.bodyOffset)) :
    message.block = raw.take message.bodyOffset ∧
      ∃ entries : List Bytes,
        raw.take message.bodyOffset = entries.flatten ++ ending ∧
          message.headers = entries.map ofLines ∧
          ∀ edits,
            (message.edited edits).block =
                (message.edited edits).written.flatten ++ ending ∧
              (message.edited edits).written =
                (message.edited edits).headers.map
                    (fun header => header.line ++ ending) ∧
              ((message.edited edits).headers.filter
                    (·.raw.isSome)).map
                  (fun header => header.line ++ ending) =
                entries.filter fun entry =>
                  Edit.allSpare edits (ofLines entry).name := by
  rcases exists_entries_of_isUniform hParse hUniform with
    ⟨entries, hBlock, hEntries, hKept, hEnding⟩
  have hWritten :
      ∀ part : List Bytes, part ⊆ entries →
        (part.map ofLines).map (fun header => header.line ++ ending) =
          part := by
    intro part hPart
    rw [List.map_map]
    have hSame :=
      List.map_congr_left fun entry hEntry =>
        hKept entry (hPart hEntry)
    exact hSame.trans (List.map_id _)
  refine ⟨?_, entries, hBlock, hEntries, ?_⟩
  · rw [block_eq_written, written, hEnding, hEntries,
      hWritten entries (List.Subset.refl _), hBlock]
  · intro edits
    have hSame :=
      (eq_of_edited lineEnding lineEnding_edit message
        edits).trans hEnding
    refine ⟨?_, ?_, ?_⟩
    · rw [block_eq_written, hSame]
    · rw [written, hSame]
    · have hAll :
          (entries.map ofLines).filter (·.raw.isSome) =
            entries.map ofLines := by
        rw [List.filter_eq_self]
        intro header hHeader
        rcases List.mem_map.mp hHeader with ⟨entry, _, rfl⟩
        exact isSome_raw_ofLines entry
      rw [filter_headers_edited, hEntries, hAll, List.filter_map,
        hWritten _ (List.filter_subset_self _)]
      rfl

/- A byte that is no text, four spaces and a folded line. -/
def paddedMail : Bytes :=
  Utf8.encode "Subject: caf" ++ 0xE9 :: Utf8.encode
    "\r\nX-Pad:    spaced\r\nX-Folded: one\r\n\ttwo\r\n\r\nbody\r\n"

/- What is read from it. -/
def paddedMessage : Message where
  headers := [
    ⟨"Subject", "caf\uFFFD",
      some (Utf8.encode "Subject: caf" ++ [0xE9])⟩,
    ⟨"X-Pad", "spaced", some (Utf8.encode "X-Pad:    spaced")⟩,
    ⟨"X-Folded", "one\r\n\ttwo",
      some (Utf8.encode "X-Folded: one\r\n\ttwo")⟩
  ]
  bodyOffset := 56
  crlf := true

/- Two of the three headers are left when one is set. -/
theorem verbatim_paddedMail :
    parse paddedMail = .ok paddedMessage ∧
      Bytes.IsUniform Bytes.crlf
        (paddedMail.take paddedMessage.bodyOffset) ∧
      paddedMessage.block = paddedMail.take 56 ∧
      ∃ entries : List Bytes,
        paddedMail.take 56 = entries.flatten ++ Bytes.crlf ∧
          entries.length = 3 ∧
          (entries.filter fun entry =>
            Edit.allSpare
              [.append "X-Checked" "yes", .set "X-Pad" "tight"]
              (ofLines entry).name) =
          [Utf8.encode "Subject: caf" ++ [0xE9, cr, lf],
            Utf8.encode "X-Folded: one\r\n\ttwo\r\n"] := by
  have hParse : parse paddedMail = .ok paddedMessage := by
    decide +kernel
  have hUniform :
      Bytes.IsUniform Bytes.crlf
        (paddedMail.take paddedMessage.bodyOffset) := by
    refine ⟨Or.inr rfl, ?_, by decide⟩
    have hLines :
        ∀ line ∈ lines (paddedMail.take paddedMessage.bodyOffset),
          line = line.take (line.length - 2) ++ Bytes.crlf ∧
            cr ∉ line.take (line.length - 2) := by
      decide
    exact fun line hLine => ⟨_, hLines line hLine⟩
  rcases verbatim_of_isUniform hParse hUniform with
    ⟨hBlock, entries, hEntries, hHeaders, hEdits⟩
  refine ⟨hParse, hUniform, hBlock, entries, hEntries, ?_, ?_⟩
  · have hLength := congrArg List.length hHeaders
    rw [List.length_map] at hLength
    exact hLength.symm
  · rw [← (hEdits _).2.2]
    decide +kernel

end Message

end MailFilter
