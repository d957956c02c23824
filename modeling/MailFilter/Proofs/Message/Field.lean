import MailFilter.Message.Header
import MailFilter.Proofs.Text.Folded

/-
  How one entry of a header block is read.

  An entry is a field, which is a name, a colon and a text
  that may go on over several lines, or a line without a
  colon. Reading it gives what stands in it, whatever follows
  it, unless a line follows that continues it.

  Key definitions include:
    * `Bytes.IsField`
    * `Bytes.IsBareLine`
    * `Header.ofField`
    * `Header.ofBareLine`
    * `Header.afterFolds`

  Main statements:
    * `Header.takeLines_field`
    * `Header.takeLines_bareLine`
    * `Header.ofLines_field`
    * `Header.ofLines_bareLine`
-/

namespace MailFilter

open Bytes

------------------------------------------------------------
-- Entries
------------------------------------------------------------

/-
  A name, a colon, and a text that may go on over several
  lines.
-/
def Bytes.IsField
    (entry : Bytes) : Prop :=
  ∃ name text : Bytes,
    entry = name ++ colon :: text ++ [lf] ∧
      colon ∉ name ∧ lf ∉ name ∧ text.IsFolded

/- A line without a colon. -/
def Bytes.IsBareLine
    (entry : Bytes) : Prop :=
  ∃ name : Bytes,
    entry = name ++ [lf] ∧ colon ∉ name ∧ lf ∉ name

/- What a field says, with its bytes up to its line ending. -/
def Header.ofField
    (entry : Bytes) : Header :=
  let name := entry.takeWhile (· != colon)
  { name := nameText name
    value := valueText (entry.drop (name.length + 1))
    raw := some (dropLineEnds entry) }

/-
  A line without a colon is a name. A carriage return that
  ends the line is part of it.
-/
def Header.ofBareLine
    (entry : Bytes) : Header :=
  { name := nameText entry.dropLast
    value := ""
    raw := some (dropCr entry.dropLast) }

namespace Bytes

/- Bytes without a line feed are folded. -/
theorem isFolded_of_lf_not_mem
    {data : Bytes}
    (hNone : lf ∉ data) :
    data.IsFolded := by
  apply MailFilter.IsFolded.of_forall
  intro b hb
  simp only [beq_eq_false_iff_ne]
  rintro rfl
  exact hNone hb

/- All of a field but the line feed at its end is folded. -/
theorem IsField.exists_isFolded
    {entry : Bytes}
    (hField : entry.IsField) :
    ∃ text : Bytes, entry = text ++ [lf] ∧ text.IsFolded := by
  rcases hField with ⟨name, text, rfl, _hColon, hLf, hFolded⟩
  refine ⟨name ++ colon :: text, rfl, ?_⟩
  apply (isFolded_of_lf_not_mem hLf).append
  refine ⟨?_, hFolded⟩
  intro hFeed
  exact absurd hFeed (by decide)

theorem IsBareLine.exists_isFolded
    {entry : Bytes}
    (hBare : entry.IsBareLine) :
    ∃ text : Bytes, entry = text ++ [lf] ∧ text.IsFolded := by
  rcases hBare with ⟨name, rfl, _hColon, hLf⟩
  exact ⟨name, rfl, isFolded_of_lf_not_mem hLf⟩

------------------------------------------------------------
-- Lines
------------------------------------------------------------

theorem takeWhile_append_cons
    {b : UInt8}
    {front : Bytes}
    (hNone : b ∉ front)
    (back : Bytes) :
    (front ++ b :: back).takeWhile (· != b) = front := by
  rw [List.takeWhile_append_of_pos]
  · simp
  · intro c hc
    simp only [bne_iff_ne]
    rintro rfl
    exact hNone hc

theorem dropWhile_append_cons
    {b : UInt8}
    {front : Bytes}
    (hNone : b ∉ front)
    (back : Bytes) :
    (front ++ b :: back).dropWhile (· != b) = b :: back := by
  rw [List.dropWhile_append_of_pos]
  · simp
  · intro c hc
    simp only [bne_iff_ne]
    rintro rfl
    exact hNone hc

/- A line ends at the first line feed. -/
theorem splitLine_append_lf
    {line : Bytes}
    (hNone : lf ∉ line)
    (rest : Bytes) :
    splitLine (line ++ lf :: rest) = (line ++ [lf], rest) := by
  unfold splitLine
  rw [dropWhile_append_cons hNone, takeWhile_append_cons hNone]

theorem splitLine_of_lf_not_mem
    {data : Bytes}
    (hNone : lf ∉ data) :
    splitLine data = (data, []) := by
  have hDrop : data.dropWhile (· != lf) = [] := by
    rw [List.dropWhile_eq_nil_iff]
    intro b hb
    simp only [bne_iff_ne]
    rintro rfl
    exact hNone hb
  unfold splitLine
  rw [hDrop]

/- The first line of what starts with a field has a colon. -/
theorem IsField.colon_mem_splitLine
    {entry : Bytes}
    (hField : entry.IsField)
    (rest : Bytes) :
    colon ∈ (splitLine (entry ++ rest)).1 := by
  rcases hField with ⟨name, text, rfl, _hColon, hLf, _hFolded⟩
  by_cases hMem : lf ∈ text
  · rcases List.eq_append_cons_of_mem hMem with
      ⟨front, back, rfl, hFront⟩
    have hLine : lf ∉ name ++ colon :: front := by
      simp +decide [hLf, hFront]
    have hSplit := splitLine_append_lf hLine
      (back ++ lf :: rest)
    simp only [List.append_assoc, List.cons_append,
      List.nil_append] at hSplit ⊢
    rw [hSplit]
    simp
  · have hLine : lf ∉ name ++ colon :: text := by
      simp +decide [hLf, hMem]
    have hSplit := splitLine_append_lf hLine rest
    simp only [List.append_assoc, List.cons_append,
      List.nil_append] at hSplit ⊢
    rw [hSplit]
    simp

end Bytes

namespace Text

------------------------------------------------------------
-- Trimming
------------------------------------------------------------

theorem trimChars_cons_blank
    {c : Char}
    (hBlank : isBlank c = true)
    (text : List Char) :
    trimChars (c :: text) = trimChars text := by
  simp [trimChars, trimStart, hBlank]

theorem trimChars_concat_blank
    {c : Char}
    (hBlank : isBlank c = true)
    (text : List Char) :
    trimChars (text ++ [c]) = trimChars text := by
  unfold trimChars trimStart
  by_cases hAll : ∀ d ∈ text, isBlank d = true
  · rw [List.dropWhile_append_of_pos hAll,
      List.dropWhile_eq_nil_iff.mpr hAll]
    simp [hBlank]
  · have hRest : text.dropWhile isBlank ≠ [] := by
      rw [ne_eq, List.dropWhile_eq_nil_iff]
      exact hAll
    rw [List.dropWhile_append, if_neg (by simpa using hRest)]
    exact List.rdropWhile_concat_pos _ _ _ hBlank

end Text

namespace Header

------------------------------------------------------------
-- Continuation Lines
------------------------------------------------------------

/- What is left after the lines that continue a field. -/
def afterFolds
    (data : Bytes) : Bytes :=
  (takeFolds [] data).2

theorem snd_takeFolds
    (found : List Bytes)
    (data : Bytes) :
    (takeFolds found data).2 = afterFolds data := by
  have hAny :
      ∀ found other : List Bytes,
        (takeFolds found data).2 = (takeFolds other data).2 := by
    intro found
    fun_induction takeFolds found data with
    | case1 found => simp [takeFolds]
    | case2 found b rest hBlank ih =>
        intro other
        conv_rhs => rw [takeFolds, if_pos hBlank]
        exact ih _
    | case3 found b rest hBlank =>
        intro other
        conv_rhs => rw [takeFolds, if_neg hBlank]
  exact hAny found []

theorem afterFolds_of_blank
    {data : Bytes}
    (hBlank : data.head?.any isSpaceOrTab = true) :
    afterFolds data = afterFolds (splitLine data).2 := by
  cases data with
  | nil => simp at hBlank
  | cons b rest =>
      simp only [List.head?_cons, Option.any_some] at hBlank
      conv_lhs => rw [afterFolds, takeFolds, if_pos hBlank]
      exact snd_takeFolds _ _

theorem afterFolds_of_not_blank
    {data : Bytes}
    (hBlank : data.head?.any isSpaceOrTab = false) :
    afterFolds data = data := by
  cases data with
  | nil => simp [afterFolds, takeFolds]
  | cons b rest =>
      simp only [List.head?_cons, Option.any_some] at hBlank
      rw [afterFolds, takeFolds, if_neg (by simp [hBlank])]

/- Folded text is left behind with the line that it starts. -/
theorem afterFolds_splitLine
    {text : Bytes}
    (hFolded : text.IsFolded)
    (rest : Bytes) :
    afterFolds (splitLine (text ++ lf :: rest)).2 =
      afterFolds rest := by
  induction hLength : text.length using Nat.strong_induction_on
    generalizing text with
  | _ length ih =>
      by_cases hMem : lf ∈ text
      · rcases List.eq_append_cons_of_mem hMem with
          ⟨front, back, rfl, hFront⟩
        have hBlank :=
          hFolded.goesOn_of_append_cons (a := lf) rfl
        have hBack : Bytes.IsFolded back :=
          hFolded.of_append_right.2
        have hHead :
            (back ++ lf :: rest).head?.any isSpaceOrTab =
              true := by
          cases back with
          | nil => simp at hBlank
          | cons b back => exact hBlank
        simp only [List.length_append,
          List.length_cons] at hLength
        rw [List.append_assoc, List.cons_append,
          splitLine_append_lf hFront, afterFolds_of_blank hHead]
        exact ih back.length (by omega) hBack rfl
      · rw [splitLine_append_lf hMem]

/- Folded text that starts with a blank is left behind. -/
theorem afterFolds_append_lf
    {text : Bytes}
    (hFolded : text.IsFolded)
    (hBlank : text.head?.any isSpaceOrTab = true)
    (rest : Bytes) :
    afterFolds (text ++ lf :: rest) = afterFolds rest := by
  have hHead :
      (text ++ lf :: rest).head?.any isSpaceOrTab = true := by
    cases text with
    | nil => simp at hBlank
    | cons b text => exact hBlank
  rw [afterFolds_of_blank hHead, afterFolds_splitLine hFolded]

------------------------------------------------------------
-- Taking An Entry
------------------------------------------------------------

/- Taking a field takes what continues it as well. -/
theorem snd_takeLines_field
    {entry : Bytes}
    (hField : entry.IsField)
    (rest : Bytes) :
    (takeLines (entry ++ rest)).2 = afterFolds rest := by
  have hColon :
      (splitLine (entry ++ rest)).1.contains colon = true := by
    simpa using hField.colon_mem_splitLine rest
  rcases hField.exists_isFolded with ⟨text, rfl, hFolded⟩
  rw [takeLines, if_pos hColon, snd_takeFolds,
    List.append_assoc, List.singleton_append,
    afterFolds_splitLine hFolded]

/- A field is taken as a whole and nothing else is. -/
theorem takeLines_field
    {entry rest : Bytes}
    (hField : entry.IsField)
    (hBlank : rest.head?.any isSpaceOrTab = false) :
    takeLines (entry ++ rest) = (entry, rest) := by
  have hRest : (takeLines (entry ++ rest)).2 = rest := by
    rw [snd_takeLines_field hField,
      afterFolds_of_not_blank hBlank]
  have hWhole := takeLines_append (entry ++ rest)
  rw [hRest] at hWhole
  exact Prod.ext (List.append_cancel_right hWhole) hRest

/- A line without a colon is taken alone. -/
theorem takeLines_bareLine
    {entry : Bytes}
    (hBare : entry.IsBareLine)
    (rest : Bytes) :
    takeLines (entry ++ rest) = (entry, rest) := by
  rcases hBare with ⟨name, rfl, hColon, hLf⟩
  rw [List.append_assoc, List.singleton_append, takeLines,
    splitLine_append_lf hLf, if_neg]
  simp +decide [hColon]

------------------------------------------------------------
-- Taking From Any Bytes
------------------------------------------------------------

/- The lines that are taken are folded up to their line feed. -/
theorem exists_takeFolds_eq
    {found : List Bytes}
    {front : Bytes}
    (hFound : found.reverse.flatten = front ++ [lf])
    (hFront : front.IsFolded)
    (data : Bytes) :
    ∃ text : Bytes, text.IsFolded ∧
      ((takeFolds found data).1 = text ∨
        (takeFolds found data).1 = text ++ [lf]) := by
  induction hLength : data.length using Nat.strong_induction_on
    generalizing found front data with
  | _ length ih =>
      cases data with
      | nil =>
          refine ⟨front, hFront, Or.inr ?_⟩
          rw [takeFolds, hFound]
      | cons b rest =>
          by_cases hBlank : isSpaceOrTab b = true
          · rw [takeFolds, if_pos hBlank]
            by_cases hMem : lf ∈ b :: rest
            · rcases List.eq_append_cons_of_mem hMem with
                ⟨line, later, hSplit, hLine⟩
              rw [hSplit, splitLine_append_lf hLine]
              have hShort : later.length < length := by
                rw [← hLength, hSplit]
                simp only [List.length_append,
                  List.length_cons]
                omega
              have hNext :
                  (front ++ lf :: line).IsFolded := by
                refine hFront.append ⟨?_,
                  isFolded_of_lf_not_mem hLine⟩
                intro _
                cases line with
                | nil =>
                    cases hSplit
                    exact absurd hBlank (by decide)
                | cons c line =>
                    cases hSplit
                    exact hBlank
              have hMore :
                  ((line ++ [lf]) :: found).reverse.flatten =
                    (front ++ lf :: line) ++ [lf] := by
                simp [hFound]
              exact ih later.length hShort hMore hNext later rfl
            · rw [splitLine_of_lf_not_mem hMem, takeFolds]
              refine ⟨front ++ lf :: b :: rest, ?_, Or.inl ?_⟩
              · refine hFront.append ⟨?_,
                  isFolded_of_lf_not_mem hMem⟩
                intro _
                exact hBlank
              · simp [hFound]
          · rw [takeFolds, if_neg hBlank]
            exact ⟨front, hFront, Or.inr hFound⟩

theorem exists_takeLines_eq
    (data : Bytes) :
    ∃ text : Bytes, text.IsFolded ∧
      ((takeLines data).1 = text ∨
        (takeLines data).1 = text ++ [lf]) := by
  by_cases hMem : lf ∈ data
  · rcases List.eq_append_cons_of_mem hMem with
      ⟨line, rest, rfl, hLine⟩
    have hFolded := isFolded_of_lf_not_mem hLine
    rw [takeLines, splitLine_append_lf hLine]
    split
    · exact exists_takeFolds_eq (by simp) hFolded rest
    · exact ⟨line, hFolded, Or.inr rfl⟩
  · refine ⟨data, isFolded_of_lf_not_mem hMem, Or.inl ?_⟩
    rw [takeLines, splitLine_of_lf_not_mem hMem]
    split
    · simp [takeFolds]
    · rfl

------------------------------------------------------------
-- Values
------------------------------------------------------------

/- The byte is part of a line ending. -/
def isLineEnd
    (b : UInt8) : Bool :=
  b == cr || b == lf

theorem valueText_cons_space
    (value : Bytes) :
    valueText (space :: value) = valueText value := by
  have hFirst :
      Utf8.decodeChars (space :: value) =
        ' ' :: Utf8.decodeChars value :=
    Utf8.decodeChars_cons_ascii (by decide) value
  simp only [valueText, Text.trim, Utf8.decodeLossy,
    String.toList_ofList]
  rw [hFirst, Text.trimChars_cons_blank (by decide)]

/- Spaces in front are no part of a value. -/
theorem valueText_dropWhile_space
    (value : Bytes) :
    valueText (value.dropWhile (· == space)) =
      valueText value := by
  induction value with
  | nil => rfl
  | cons b value ih =>
      by_cases hSpace : b = space
      · subst hSpace
        rw [valueText_cons_space]
        exact ih
      · rw [List.dropWhile_cons_of_neg (by simpa using hSpace)]

theorem valueText_concat_lineEnd
    {b : UInt8}
    (hEnd : isLineEnd b = true)
    (value : Bytes) :
    valueText (value ++ [b]) = valueText value := by
  simp only [isLineEnd, Bool.or_eq_true, beq_iff_eq] at hEnd
  have hAscii : b < 0x80 := by
    rcases hEnd with rfl | rfl <;> decide
  have hBlank : Text.isBlank (Char.ofNat b.toNat) = true := by
    rcases hEnd with rfl | rfl <;> decide
  have hLast :
      Utf8.decodeChars (value ++ [b]) =
        Utf8.decodeChars value ++ [Char.ofNat b.toNat] := by
    rw [Utf8.decodeChars_append_ascii _ hAscii,
      Utf8.decodeChars_cons_ascii hAscii]
    rfl
  simp only [valueText, Text.trim, Utf8.decodeLossy,
    String.toList_ofList]
  rw [hLast, Text.trimChars_concat_blank hBlank]

/- Line endings at the end are no part of a value. -/
@[simp]
theorem valueText_dropLineEnds
    (value : Bytes) :
    valueText (dropLineEnds value) = valueText value := by
  induction value using List.reverseRecOn with
  | nil => rfl
  | append_singleton value b ih =>
      by_cases hEnd : isLineEnd b = true
      · rw [valueText_concat_lineEnd hEnd, ← ih]
        exact congrArg valueText
          (List.rdropWhile_concat_pos _ _ _ hEnd)
      · exact congrArg valueText
          (List.rdropWhile_concat_neg _ _ _ hEnd)

/- Line endings are dropped up to a byte that is part of none. -/
theorem dropLineEnds_append
    {front : Bytes}
    (hLast : ∀ b ∈ front.getLast?, isLineEnd b = false)
    (back : Bytes) :
    dropLineEnds (front ++ back) =
      front ++ dropLineEnds back := by
  induction back using List.reverseRecOn with
  | nil =>
      rw [List.append_nil]
      have hSelf : dropLineEnds front = front := by
        apply List.rdropWhile_eq_self_iff.mpr
        intro hSome
        have hEnd :=
          hLast _ (List.getLast?_eq_some_getLast hSome)
        simpa [isLineEnd] using hEnd
      rw [hSelf]
      exact (List.append_nil front).symm
  | append_singleton back c ih =>
      rw [← List.append_assoc]
      by_cases hEnd : isLineEnd c = true
      · have hWhole :
            dropLineEnds (front ++ back ++ [c]) =
              dropLineEnds (front ++ back) :=
          List.rdropWhile_concat_pos _ _ _ hEnd
        have hBack :
            dropLineEnds (back ++ [c]) = dropLineEnds back :=
          List.rdropWhile_concat_pos _ _ _ hEnd
        rw [hWhole, hBack, ih]
      · have hWhole :
            dropLineEnds (front ++ back ++ [c]) =
              front ++ back ++ [c] :=
          List.rdropWhile_concat_neg _ _ _ hEnd
        have hBack :
            dropLineEnds (back ++ [c]) = back ++ [c] :=
          List.rdropWhile_concat_neg _ _ _ hEnd
        rw [hWhole, hBack, List.append_assoc]

theorem dropLineEnds_append_colon
    (name text : Bytes) :
    dropLineEnds (name ++ colon :: text) =
      name ++ colon :: dropLineEnds text := by
  have hSplit :
      name ++ colon :: text = (name ++ [colon]) ++ text := by
    simp
  rw [hSplit, dropLineEnds_append]
  · simp
  · intro b hb
    rw [List.getLast?_concat, Option.mem_some_iff] at hb
    rw [← hb]
    rfl

/- What has no line ending has no carriage return to drop. -/
theorem dropCr_dropLineEnds
    (data : Bytes) :
    dropCr (dropLineEnds data) = dropLineEnds data := by
  unfold dropCr
  rw [if_neg]
  simp only [beq_iff_eq]
  intro hLast
  rcases List.mem_getLast?_eq_getLast hLast with ⟨hSome, hEq⟩
  apply List.rdropWhile_last_not (fun b => b == cr || b == lf)
    data hSome
  exact (congrArg (fun b => b == cr || b == lf) hEq).symm

------------------------------------------------------------
-- Reading An Entry
------------------------------------------------------------

/- A name with a colon after it. -/
theorem ofLines_of_colon
    {lines name rest : Bytes}
    (hName :
      lines.takeWhile (fun b => b != colon && b != lf) = name)
    (hRest : lines.drop name.length = colon :: rest)
    (hSome : rest.dropWhile (· == space) ≠ []) :
    ofLines lines =
      ofParts name (colon :: rest.takeWhile (· == space))
          (dropLineEnds (rest.dropWhile (· == space))) := by
  unfold ofLines
  rw [hName]
  dsimp only
  rw [hRest]
  exact if_neg (by simpa using hSome)

/- A name ends at the first colon or line feed. -/
theorem takeWhile_name
    {name : Bytes}
    {b : UInt8}
    (hColon : colon ∉ name)
    (hLf : lf ∉ name)
    (hEnd : b = colon ∨ b = lf)
    (rest : Bytes) :
    (name ++ b :: rest).takeWhile
        (fun b => b != colon && b != lf) = name := by
  rw [List.takeWhile_append_of_pos]
  · rcases hEnd with rfl | rfl <;> simp
  · intro c hc
    simp only [Bool.and_eq_true, bne_iff_ne]
    constructor
    · rintro rfl
      exact hColon hc
    · rintro rfl
      exact hLf hc

/- What a field says that is cut at its colon. -/
theorem ofParts_text
    (name text : Bytes) :
    ofParts name (colon :: text.takeWhile (· == space))
        (dropLineEnds (text.dropWhile (· == space))) =
      { name := nameText name
        value := valueText text
        raw := some (name ++ colon :: dropLineEnds text) } := by
  simp only [ofParts, valueText_dropLineEnds,
    valueText_dropWhile_space]
  -- The spaces after the colon stay where they were.
  have hLast :
      ∀ b ∈ (name ++
        colon :: text.takeWhile (· == space)).getLast?,
        isLineEnd b = false := by
    intro b hb
    rw [List.getLast?_append_cons] at hb
    rcases List.mem_cons.mp (List.mem_of_getLast? hb)
      with rfl | hSpace
    · rfl
    · have hEq := List.mem_takeWhile_imp hSpace
      rw [beq_iff_eq.mp hEq]
      rfl
  rw [← dropLineEnds_append hLast, List.append_assoc,
    List.cons_append, List.takeWhile_append_dropWhile,
    dropCr_dropLineEnds, dropLineEnds_append_colon]

/- A field in its parts. -/
theorem ofField_append
    {name : Bytes}
    (hColon : colon ∉ name)
    (text : Bytes) :
    ofField (name ++ colon :: text ++ [lf]) = {
      name := nameText name
      value := valueText text
      raw := some (name ++ colon :: dropLineEnds text) } := by
  have hName :
      (name ++ colon :: text ++ [lf]).takeWhile (· != colon) =
        name := by
    rw [List.append_assoc]
    exact takeWhile_append_cons hColon _
  have hText :
      (name ++ colon :: text ++ [lf]).drop (name.length + 1) =
        text ++ [lf] := by
    rw [List.append_assoc, ← List.drop_drop, List.drop_left]
    rfl
  have hDrop :
      dropLineEnds (name ++ colon :: text ++ [lf]) =
        name ++ colon :: dropLineEnds text := by
    have hWhole :
        dropLineEnds (name ++ colon :: text ++ [lf]) =
          dropLineEnds (name ++ colon :: text) :=
      List.rdropWhile_concat_pos _ _ _ rfl
    rw [hWhole, dropLineEnds_append_colon]
  have hValue :
      valueText (text ++ [lf]) = valueText text :=
    valueText_concat_lineEnd rfl text
  simp only [ofField, hName, hText, hDrop, hValue]

/- A field is read as what stands in it. -/
theorem ofLines_field
    {entry : Bytes}
    (hField : entry.IsField) :
    ofLines entry = ofField entry := by
  rcases hField with ⟨name, text, rfl, hColon, hLf, _hFolded⟩
  rw [ofField_append hColon, List.append_assoc,
    List.cons_append]
  have hSome :
      (text ++ [lf]).dropWhile (· == space) ≠ [] := by
    rw [ne_eq, List.dropWhile_eq_nil_iff]
    intro hAll
    exact absurd (hAll lf (by simp)) (by decide)
  have hDrop :
      dropLineEnds (text ++ [lf]) = dropLineEnds text :=
    List.rdropWhile_concat_pos _ _ _ rfl
  rw [ofLines_of_colon
      (takeWhile_name hColon hLf (Or.inl rfl) _)
      List.drop_left hSome,
    ofParts_text, hDrop, valueText_concat_lineEnd rfl]

/- A line without a colon is read as a name. -/
theorem ofLines_bareLine
    {entry : Bytes}
    (hBare : entry.IsBareLine) :
    ofLines entry = ofBareLine entry := by
  rcases hBare with ⟨name, rfl, hColon, hLf⟩
  unfold ofLines
  rw [takeWhile_name hColon hLf (Or.inr rfl)]
  dsimp only
  rw [List.drop_left]
  simp only [ofBareLine, List.dropLast_concat]
  change ofParts name [] [] = _
  simp only [ofParts, List.append_nil]
  rfl

/- A line without a colon in its parts. -/
theorem ofBareLine_append
    (name : Bytes) :
    ofBareLine (name ++ [lf]) = {
      name := nameText name
      value := ""
      raw := some (dropCr name) } := by
  simp only [ofBareLine, List.dropLast_concat]

end Header

end MailFilter
