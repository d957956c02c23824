import MailFilter.Proofs.Smtp.Arguments
import MailFilter.Proofs.Smtp.Completion
import MailFilter.Proofs.Smtp.Transparency

/-
  The names of the fields in a header block, by its lines.

  They do not depend on how the lines end. Lines can stand in
  front of others without changing how those are split, and so
  a completed message has the fields that were added and then
  those it came with.

  Key definitions include:
    * `Smtp.fieldNames`
    * `Smtp.timesNamed`
    * `Smtp.LacksNothing`

  Main statements:
    * `Smtp.fieldNames_wireLines`
    * `Smtp.splitBlock_lines_completed`
    * `Smtp.LacksNothing.wireLines`
    * `Smtp.lacksNothing_completed`
-/

namespace MailFilter

namespace Bytes

------------------------------------------------------------
-- Line Endings
------------------------------------------------------------

/- A line is a text and its ending. -/
theorem IsLine.exists_ending
    {line : Bytes}
    (hLine : line.IsLine) :
    ∃ ending : Bytes,
      ending.IsBlankLine ∧ line = chomp line ++ ending := by
  rcases hLine with ⟨front, rfl, _⟩
  have hChomp : chomp (front ++ [lf]) = dropCr front := by
    simp [chomp]
  rw [hChomp]
  unfold dropCr
  split
  · rename_i hLast
    have hWhole : front.dropLast ++ [cr] = front :=
      List.dropLast_append_getLast? cr (beq_iff_eq.mp hLast)
    refine ⟨crlf, Or.inr rfl, ?_⟩
    calc front ++ [lf] =
        front.dropLast ++ [cr] ++ [lf] := by rw [hWhole]
      _ = front.dropLast ++ crlf := List.append_assoc ..
  · exact ⟨[lf], Or.inl rfl, rfl⟩

theorem isLine_of_isBlankLine
    {line : Bytes}
    (hBlank : line.IsBlankLine) :
    line.IsLine := by
  rcases hBlank with rfl | rfl
  · exact ⟨[], rfl, by decide⟩
  · exact ⟨[cr], rfl, by decide⟩

/- Another ending leaves the text of a line. -/
theorem chomp_wireLine
    (line : Bytes) :
    chomp (wireLine line) = chomp line := by
  simp [wireLine, chomp, dropCr]

theorem isLine_wireLine
    {line : Bytes}
    (hLine : line.IsLine ∨ lf ∉ line) :
    (wireLine line).IsLine := by
  refine ⟨chomp line ++ [cr], by simp [wireLine], ?_⟩
  have hText := lf_not_mem_chomp hLine
  simp +decide [hText]

/- Lines are cut out of their bytes again. -/
theorem lines_flatten
    {texts : List Bytes}
    (hTexts : ∀ text ∈ texts, IsLine text) :
    lines texts.flatten = texts := by
  have hWhole := lines_flatten_append hTexts []
  rwa [List.append_nil, show lines [] = [] from rfl,
    List.append_nil] at hWhole

/- What is sent on has the lines it had, as on the wire. -/
theorem lines_toWire
    (data : Bytes) :
    lines data.toWire = (lines data).map wireLine := by
  have hLines :
      ∀ line ∈ (lines data).map wireLine, IsLine line := by
    intro line hLine
    rcases List.mem_map.mp hLine with ⟨other, hOther, rfl⟩
    exact isLine_wireLine (isLine_or_of_mem_lines hOther)
  rw [toWire_eq_flatten, lines_flatten hLines]

end Bytes

namespace Smtp

open Bytes Header

/- The ending of a line has no part in its name. -/
theorem headerName?_append_ending
    {ending : Bytes}
    (hEnding : ending.IsBlankLine)
    (text : Bytes) :
    headerName? (text ++ ending) = headerName? text := by
  by_cases hColon : colon ∈ text
  · rcases List.eq_append_cons_of_mem hColon with
      ⟨name, value, rfl, hName⟩
    have hLong := takeWhile_append_cons hName (value ++ ending)
    have hShort := takeWhile_append_cons hName value
    rw [headerName?, headerName?, List.append_assoc,
      List.cons_append, hLong, hShort]
    simp
  · have hEnd : colon ∉ ending := by
      rcases hEnding with rfl | rfl <;> decide
    have hAll :
        ∀ data : Bytes, colon ∉ data →
          headerName? data = none := by
      intro data hNone
      simp [headerName?, Text.takeWhile_of_not_mem hNone]
    rw [hAll text hColon,
      hAll _ (by simp [hColon, hEnd])]

/- A line starts with a blank if its text does. -/
theorem startsBlank_append_ending
    {ending : Bytes}
    (hEnding : ending.IsBlankLine)
    (text : Bytes) :
    startsBlank (text ++ ending) = startsBlank text := by
  cases text with
  | nil =>
      have hStart := hEnding.startsBlank []
      rwa [List.append_nil] at hStart
  | cons b text => rfl

/- A line is blank if it has no text. -/
theorem isBlank_iff_chomp
    {line : Bytes}
    (hLine : line.IsLine) :
    IsBlank line ↔ chomp line = [] := by
  constructor
  · rintro (rfl | rfl) <;> rfl
  · intro hEmpty
    rcases hLine.exists_ending with ⟨ending, hEnding, hWhole⟩
    rw [hEmpty, List.nil_append] at hWhole
    rw [hWhole]
    exact Or.symm hEnding

/- With the ending of the wire a line is read as it was. -/
theorem wireLine_read
    {line : Bytes}
    (hLine : line.IsLine) :
    headerName? (wireLine line) = headerName? line ∧
      startsBlank (wireLine line) = startsBlank line ∧
      (IsBlank (wireLine line) ↔ IsBlank line) := by
  have hWire : Bytes.IsBlankLine crlf := Or.inr rfl
  refine ⟨?_, ?_, ?_⟩
  · rcases hLine.exists_ending with ⟨ending, hEnding, hWhole⟩
    have hText := headerName?_append_ending hEnding (chomp line)
    rw [← hWhole] at hText
    rw [wireLine, headerName?_append_ending hWire, hText]
  · rcases hLine.exists_ending with ⟨ending, hEnding, hWhole⟩
    have hText := startsBlank_append_ending hEnding (chomp line)
    rw [← hWhole] at hText
    rw [wireLine, startsBlank_append_ending hWire, hText]
  · rw [isBlank_iff_chomp (isLine_wireLine (Or.inl hLine)),
      isBlank_iff_chomp hLine, chomp_wireLine]

------------------------------------------------------------
-- Names
------------------------------------------------------------

/- The names of the fields in the header block of lines. -/
def fieldNames
    (lines : List Bytes) : List Bytes :=
  (splitBlock lines).1.map fieldName

/- The bytes are the name up to case. -/
def isName
    (name : String)
    (bytes : Bytes) : Bool :=
  bytes.map toLower == Utf8.encode (Text.lower name)

/- How many fields in the header block have the name. -/
def timesNamed
    (name : String)
    (lines : List Bytes) : Nat :=
  (splitBlock lines).1.countP fun entry =>
    (ofField entry).isNamed name

/- A line with a name, the lines that continue it, and others. -/
theorem fieldNames_of_headerName?
    {line name : Bytes}
    (hName : headerName? line = some name)
    (rest : List Bytes) :
    fieldNames (line :: rest) =
        name :: fieldNames (rest.dropWhile startsBlank) ∧
      (splitBlock (line :: rest)).2 =
        (splitBlock (rest.dropWhile startsBlank)).2 := by
  have hSome : (headerName? line).isSome = true := by
    rw [hName]
    rfl
  rw [fieldNames, splitBlock, if_pos hSome]
  refine ⟨?_, rfl⟩
  rw [List.map_cons, fieldName_flatten hName]
  rfl

theorem dropWhile_map_startsBlank
    {change : Bytes → Bytes}
    {lines : List Bytes}
    (hStart :
      ∀ line ∈ lines,
        startsBlank (change line) = startsBlank line) :
    (lines.map change).dropWhile startsBlank =
      (lines.dropWhile startsBlank).map change := by
  induction lines with
  | nil => rfl
  | cons line lines ih =>
      rcases List.forall_mem_cons.mp hStart with
        ⟨hFirst, hLater⟩
      rw [List.map_cons, List.dropWhile_cons,
        List.dropWhile_cons, hFirst, ih hLater]
      split <;> rfl

theorem isNamed_eq_isName
    {name : String}
    (hName : name ∈ standardNames)
    (entry : Bytes) :
    (ofField entry).isNamed name =
      isName name (fieldName entry) := by
  have hAll :
      standardNames.all (fun name =>
        (Text.lower name).toList.all (·.toNat < 0x80)) :=
    rfl
  have hAscii := List.all_eq_true.mp hAll name hName
  exact isNamed_ofField entry fun c hMem =>
    of_decide_eq_true (List.all_eq_true.mp hAscii c hMem)

/- It is their names that count. -/
theorem timesNamed_eq_countP
    {name : String}
    (hName : name ∈ standardNames)
    (lines : List Bytes) :
    timesNamed name lines =
      (fieldNames lines).countP (isName name) := by
  rw [timesNamed, fieldNames, List.countP_map]
  congr 1
  funext entry
  exact isNamed_eq_isName hName entry

/- A block has a field if there is one or more of it. -/
theorem hasField_iff_timesNamed
    (name : String)
    (lines : List Bytes) :
    hasField (splitBlock lines).1 name = true ↔
      0 < timesNamed name lines := by
  rw [hasField, List.any_eq_true, timesNamed,
    List.countP_pos_iff]

/- Lines that are read in the same way have the same names. -/
theorem fieldNames_map
    {change : Bytes → Bytes}
    {lines : List Bytes}
    (hName :
      ∀ line ∈ lines,
        headerName? (change line) = headerName? line)
    (hStart :
      ∀ line ∈ lines,
        startsBlank (change line) = startsBlank line) :
    fieldNames (lines.map change) = fieldNames lines ∧
      (splitBlock (lines.map change)).2 =
        (splitBlock lines).2.map change := by
  fun_induction splitBlock lines with
  | case1 =>
      rw [List.map_nil, splitBlock]
      exact ⟨rfl, rfl⟩
  | case2 line rest hSome later ih =>
      rcases Option.isSome_iff_exists.mp hSome with ⟨name, hLine⟩
      rcases List.forall_mem_cons.mp hName with
        ⟨hNameLine, hNameRest⟩
      have hStartRest := (List.forall_mem_cons.mp hStart).2
      have hSubset := (List.dropWhile_suffix startsBlank
        (l := rest)).subset
      rcases ih (fun other hOther => hNameRest _ (hSubset hOther))
          (fun other hOther => hStartRest _ (hSubset hOther)) with
        ⟨hNames, hLeft⟩
      rcases fieldNames_of_headerName?
          (hNameLine.trans hLine) (rest.map change) with
        ⟨hNamesChanged, hLeftChanged⟩
      rw [dropWhile_map_startsBlank hStartRest]
        at hNamesChanged hLeftChanged
      rw [List.map_cons, hNamesChanged, hLeftChanged, hNames,
        (fieldNames_of_headerName? hLine rest).1]
      exact ⟨rfl, hLeft⟩
  | case3 line rest hNone =>
      have hNameLine := (List.forall_mem_cons.mp hName).1
      have hNoneChanged :
          ¬ (headerName? (change line)).isSome = true := by
        rwa [hNameLine]
      rw [List.map_cons, fieldNames, fieldNames, splitBlock,
        if_neg hNoneChanged, splitBlock, if_neg hNone]
      exact ⟨rfl, rfl⟩

/- Lines that continue nothing are not taken for folds. -/
theorem takeWhile_of_head?
    {lines : List Bytes}
    (hStart : lines.head?.any startsBlank = false) :
    lines.takeWhile startsBlank = [] ∧
      lines.dropWhile startsBlank = lines := by
  cases lines with
  | nil => exact ⟨rfl, rfl⟩
  | cons line lines =>
      have hNot : ¬ startsBlank line = true := by
        simpa using hStart
      exact ⟨List.takeWhile_cons_of_neg hNot,
        List.dropWhile_cons_of_neg hNot⟩

/- A named line in front of them is a field of its own. -/
theorem splitBlock_cons_of_head?
    {line name : Bytes}
    (hName : headerName? line = some name)
    {rest : List Bytes}
    (hRest : rest.head?.any startsBlank = false) :
    splitBlock (line :: rest) =
      (line :: (splitBlock rest).1, (splitBlock rest).2) := by
  have hSome : (headerName? line).isSome = true := by
    rw [hName]
    rfl
  rcases takeWhile_of_head? hRest with ⟨hTake, hDrop⟩
  rw [splitBlock, if_pos hSome, hTake, hDrop]
  simp

/- So are several of them. -/
theorem splitBlock_append_of_named
    {front : List Bytes}
    (hFront : ∀ line ∈ front, (headerName? line).isSome = true)
    {rest : List Bytes}
    (hRest : rest.head?.any startsBlank = false) :
    splitBlock (front ++ rest) =
      (front ++ (splitBlock rest).1, (splitBlock rest).2) := by
  induction front with
  | nil => rfl
  | cons line front ih =>
      rcases List.forall_mem_cons.mp hFront with
        ⟨hFirst, hLater⟩
      rcases Option.isSome_iff_exists.mp hFirst with ⟨name, hName⟩
      have hNext :
          (front ++ rest).head?.any startsBlank = false := by
        cases front with
        | nil => exact hRest
        | cons next front =>
            rcases Option.isSome_iff_exists.mp
                (hLater next List.mem_cons_self) with
              ⟨other, hOther⟩
            exact startsBlank_of_headerName? hOther
      rw [List.cons_append, splitBlock_cons_of_head? hName hNext,
        ih hLater]
      rfl

/-
  The lines of a block come first. They are split in the same
  way in front of any lines that continue nothing.
-/
theorem exists_splitBlock_append
    (texts : List Bytes) :
    ∃ head,
      texts = head ++ (splitBlock texts).2 ∧
        head.head?.any startsBlank = false ∧
        ∀ rest, rest.head?.any startsBlank = false →
            splitBlock (head ++ rest) =
              ((splitBlock texts).1 ++ (splitBlock rest).1,
                  (splitBlock rest).2) := by
  fun_induction splitBlock texts with
  | case1 => exact ⟨[], rfl, rfl, fun _ _ => rfl⟩
  | case2 line rest hSome later ih =>
      rcases ih with ⟨head, hWhole, hStart, hSplit⟩
      rcases Option.isSome_iff_exists.mp hSome with ⟨name, hName⟩
      refine ⟨line :: (rest.takeWhile startsBlank ++ head),
        ?_, startsBlank_of_headerName? hName, ?_⟩
      · rw [List.cons_append, List.append_assoc, ← hWhole,
          List.takeWhile_append_dropWhile]
      · intro tail hTail
        have hFolds :
            ∀ fold ∈ rest.takeWhile startsBlank,
              startsBlank fold = true :=
          fun _ hFold => List.mem_takeWhile_imp hFold
        have hNext :
            (head ++ tail).head?.any startsBlank = false := by
          cases head with
          | nil => exact hTail
          | cons first head => exact hStart
        rcases takeWhile_of_head? hNext with ⟨hTake, hDrop⟩
        rw [List.cons_append, splitBlock, if_pos hSome,
          List.append_assoc, List.takeWhile_append_of_pos hFolds,
          List.dropWhile_append_of_pos hFolds, hTake, hDrop,
          List.append_nil, hSplit tail hTail]
        rfl
  | case3 line rest hNone => exact ⟨[], rfl, rfl, fun _ _ => rfl⟩

/- A blank line ends the block at once. -/
theorem splitBlock_of_endsBlank
    {lines : List Bytes}
    (hEnds : endsBlank lines = true) :
    splitBlock lines = ([], lines) ∧
      lines.head?.any startsBlank = false := by
  cases lines with
  | nil => cases hEnds
  | cons line lines =>
      have hBlank : IsBlank line := by
        simpa [endsBlank] using hEnds
      rcases hBlank with rfl | rfl
      · rw [splitBlock, if_neg (by decide)]
        exact ⟨rfl, rfl⟩
      · rw [splitBlock, if_neg (by decide)]
        exact ⟨rfl, rfl⟩

------------------------------------------------------------
-- Messages That Lack Nothing
------------------------------------------------------------

/-
  The lines are those of a message with all fields that it
  needs, and with a blank line after them.
-/
structure LacksNothing
    (lines : List Bytes) : Prop where
  isLine : ∀ line ∈ lines, IsLine line
  named : ∀ name ∈ standardNames, 0 < timesNamed name lines
  ended : endsBlank (splitBlock lines).2 = true

/- The endings of lines do not matter. -/
theorem fieldNames_wireLines
    {lines : List Bytes}
    (hLines : ∀ line ∈ lines, IsLine line) :
    fieldNames (lines.map wireLine) = fieldNames lines ∧
      endsBlank (splitBlock (lines.map wireLine)).2 =
        endsBlank (splitBlock lines).2 := by
  rcases fieldNames_map
      (fun line hLine => (wireLine_read (hLines line hLine)).1)
      (fun line hLine =>
        (wireLine_read (hLines line hLine)).2.1) with
    ⟨hNames, hLeft⟩
  refine ⟨hNames, ?_⟩
  rcases exists_splitBlock_append lines with ⟨head, hWhole, _⟩
  rw [hLeft]
  cases hSplit : (splitBlock lines).2 with
  | nil => rfl
  | cons line left =>
      have hMem : line ∈ lines := by
        rw [hWhole, hSplit]
        exact List.mem_append_right _ List.mem_cons_self
      have hBlank := (wireLine_read (hLines line hMem)).2.2
      simp [endsBlank, hBlank]

theorem timesNamed_wireLines
    {lines : List Bytes}
    (hLines : ∀ line ∈ lines, IsLine line)
    {name : String}
    (hName : name ∈ standardNames) :
    timesNamed name (lines.map wireLine) =
      timesNamed name lines := by
  rw [timesNamed_eq_countP hName, timesNamed_eq_countP hName,
    (fieldNames_wireLines hLines).1]

theorem LacksNothing.wireLines
    {lines : List Bytes}
    (hWhole : LacksNothing lines) :
    LacksNothing (lines.map wireLine) := by
  refine ⟨?_, ?_, ?_⟩
  · intro line hLine
    rcases List.mem_map.mp hLine with ⟨other, hOther, rfl⟩
    exact isLine_wireLine (Or.inl (hWhole.isLine other hOther))
  · intro name hName
    rw [timesNamed_wireLines hWhole.isLine hName]
    exact hWhole.named name hName
  · rw [(fieldNames_wireLines hWhole.isLine).2]
    exact hWhole.ended

------------------------------------------------------------
-- Completed Messages
------------------------------------------------------------

section

variable {added : List (String × String)}
variable (hNames : ∀ field ∈ added, field.1 ∈ standardNames)
variable (hValues : ∀ field ∈ added, Text.IsOneLine field.2)
variable {ending : Bytes}
variable (hEnding : ending.IsBlankLine)

/- A field as it is added. -/
def addedLine
    (ending : Bytes)
    (field : String × String) : Bytes :=
  Utf8.encode (fieldText field) ++ ending

/- The name of a field that is added is read. -/
theorem headerName?_addedLine
    {field : String × String}
    (hName : field.1 ∈ standardNames)
    (ending : Bytes) :
    headerName? (addedLine ending field) =
      some (Utf8.encode field.1) := by
  have hStandard :
      ∀ name ∈ standardNames,
        Utf8.encode name ≠ [] ∧
          (Utf8.encode name).all isGraphic = true ∧
          colon ∉ Utf8.encode name := by
    decide +kernel
  rcases hStandard field.1 hName with ⟨hSome, hGraphic, hColon⟩
  have hText :
      addedLine ending field =
        Utf8.encode field.1 ++
          colon :: (space :: Utf8.encode field.2 ++ ending) := by
    have hMark : Utf8.encode ": " = [colon, space] := by decide
    simp [addedLine, fieldText, Utf8.encode_append, hMark]
  have hTake := takeWhile_append_cons hColon
    (space :: Utf8.encode field.2 ++ ending)
  rw [hText, headerName?, hTake]
  simp [hSome, hGraphic]

theorem isLine_addedLine
    {field : String × String}
    (hName : field.1 ∈ standardNames)
    (hValue : Text.IsOneLine field.2)
    {ending : Bytes}
    (hEnding : ending.IsBlankLine) :
    IsLine (addedLine ending field) := by
  have hStandard :
      ∀ name ∈ standardNames, Text.IsOneLine name := by
    decide
  apply isLine_encode _ hEnding
  rw [fieldText, Text.isOneLine_append, Text.isOneLine_append]
  exact ⟨⟨hStandard field.1 hName, by decide⟩, hValue⟩

/- A blank line is there, or one is put there. -/
theorem exists_endsBlank
    {ending : Bytes}
    (hEnding : ending.IsBlankLine)
    (left : List Bytes) :
    ∃ tail : List Bytes,
      endsBlank tail = true ∧
        tail.flatten =
          (if endsBlank left then [] else ending) ++
              left.flatten ∧
        ∀ line ∈ tail, line = ending ∨ line ∈ left := by
  cases hEnds : endsBlank left with
  | true => exact ⟨left, hEnds, rfl, fun _ => Or.inr⟩
  | false =>
      have hBlank : IsBlank ending := Or.symm hEnding
      refine ⟨ending :: left, ?_, rfl, fun _ => List.mem_cons.mp⟩
      simp [endsBlank, hBlank]

include hNames hValues hEnding in
/-
  A completed message has the fields that were added, then
  those it came with, and then a blank line.
-/
theorem splitBlock_lines_completed
    {texts : List Bytes}
    (hTexts : ∀ text ∈ texts, IsLine text) :
    ∃ left,
      (∀ line ∈ lines (completed ending added
          (splitBlock texts).1 (splitBlock texts).2),
        IsLine line) ∧
        splitBlock (lines (completed ending added
            (splitBlock texts).1 (splitBlock texts).2)) =
          (added.map (addedLine ending) ++
              (splitBlock texts).1, left) ∧
        endsBlank left = true := by
  rcases exists_splitBlock_append texts with
    ⟨head, hWhole, hStart, hSplit⟩
  have hFields := flatten_splitBlock texts
  generalize (splitBlock texts).1 = fields at *
  generalize (splitBlock texts).2 = left at *
  rcases exists_endsBlank hEnding left with
    ⟨tail, hTail, hTailBytes, hTailLines⟩
  have hHead : head.flatten = fields.flatten := by
    rw [hWhole, List.flatten_append] at hFields
    exact (List.append_cancel_right hFields).symm
  have hContent :
      completed ending added fields left =
        (added.map (addedLine ending) ++
            (head ++ tail)).flatten := by
    rw [List.flatten_append, List.flatten_append, hHead,
      hTailBytes, completed]
    simp only [List.append_assoc]
    rfl
  have hLines :
      ∀ line ∈ added.map (addedLine ending) ++ (head ++ tail),
        IsLine line := by
    intro line hLine
    rcases List.mem_append.mp hLine with hNew | hOld
    · rcases List.mem_map.mp hNew with ⟨field, hField, rfl⟩
      exact isLine_addedLine (hNames field hField)
        (hValues field hField) hEnding
    · rcases List.mem_append.mp hOld with hHeadLine | hTailLine
      · exact hTexts line (by simp [hWhole, hHeadLine])
      · rcases hTailLines line hTailLine with rfl | hLeft
        · exact isLine_of_isBlankLine hEnding
        · exact hTexts line (by simp [hWhole, hLeft])
  rcases splitBlock_of_endsBlank hTail with
    ⟨hSplitTail, hTailStart⟩
  have hNext :
      (head ++ tail).head?.any startsBlank = false := by
    cases head with
    | nil => exact hTailStart
    | cons first head => exact hStart
  rw [hContent, lines_flatten hLines]
  refine ⟨tail, hLines, ?_, hTail⟩
  rw [splitBlock_append_of_named ?_ hNext,
    hSplit tail hTailStart, hSplitTail, List.append_nil]
  intro line hLine
  rcases List.mem_map.mp hLine with ⟨field, hField, rfl⟩
  rw [headerName?_addedLine (hNames field hField)]
  rfl

end

/- A field that is added has its own name only. -/
theorem isNamed_addedLine
    {field : String × String}
    (hField : field.1 ∈ standardNames)
    (ending : Bytes)
    {name : String}
    (hName : name ∈ standardNames) :
    (ofField (addedLine ending field)).isNamed name =
      (field.1 == name) := by
  have hSame :
      ∀ other ∈ standardNames, ∀ name ∈ standardNames,
        isName name (Utf8.encode other) = (other == name) := by
    decide +kernel
  have hRead := fieldName_flatten
    (headerName?_addedLine hField ending) []
  rw [List.flatten_singleton] at hRead
  rw [isNamed_eq_isName hName, hRead,
    hSame field.1 hField name hName]

/- A field is added once if it is missing. -/
theorem countP_addedLine
    (completion : Completion)
    (stamp : Stamp)
    (fields : List Bytes)
    (ending : Bytes)
    {name : String}
    (hName : name ∈ standardNames) :
    ((lacking completion stamp fields).map
          (addedLine ending)).countP
        (fun entry => (ofField entry).isNamed name) =
      if hasField fields name then 0 else 1 := by
  have hStandard :
      ∀ field ∈ completion.standard stamp,
        field.1 ∈ standardNames := by
    intro field hField
    rw [← map_fst_standard completion stamp]
    exact List.mem_map_of_mem hField
  have hOnce :
      ∀ name ∈ standardNames,
        standardNames.countP (· == name) = 1 := by
    decide
  have hCount :
      ((lacking completion stamp fields).map
            (addedLine ending)).countP
          (fun entry => (ofField entry).isNamed name) =
        (completion.standard stamp).countP fun field =>
          field.1 == name && !hasField fields name := by
    rw [List.countP_map, lacking, List.countP_filter]
    apply List.countP_congr
    intro field hField
    have hNamed :=
      isNamed_addedLine (hStandard field hField) ending hName
    simp only [Function.comp_apply, hNamed, Bool.and_eq_true,
      beq_iff_eq]
    exact and_congr_right fun hSame => by rw [hSame]
  rw [hCount]
  cases hasField fields name with
  | true => simp
  | false =>
      have hNames := hOnce name hName
      rw [← map_fst_standard completion stamp, List.countP_map]
        at hNames
      simpa [Function.comp_def] using hNames

section

variable {completion : Completion}
variable {stamp : Stamp}
variable (hStamp : stamp.IsPlain)
variable (hHost : Text.IsOneLine completion.hostname)
variable
  (hSender :
    ∀ sender ∈ completion.sender, Text.IsOneLine sender)
variable {ending : Bytes}
variable (hEnding : ending.IsBlankLine)
variable {texts : List Bytes}
variable (hTexts : ∀ text ∈ texts, IsLine text)

include hStamp hHost hSender hEnding hTexts in
/-
  A completed message lacks nothing. It has the fields that
  it needs as often as it had them before, but once at least.
-/
theorem lacksNothing_completed :
    let content :=
      completed ending
        (lacking completion stamp (splitBlock texts).1)
        (splitBlock texts).1 (splitBlock texts).2
    LacksNothing (lines content) ∧
      ∀ name ∈ standardNames,
        timesNamed name (lines content) =
          max 1 (timesNamed name texts) := by
  intro content
  have hAdded :
      ∀ field ∈ lacking completion stamp (splitBlock texts).1,
        field.1 ∈ standardNames ∧
          Text.IsOneLine field.2 := by
    intro field hField
    have hMem := List.mem_of_mem_filter hField
    refine ⟨?_, isOneLine_standard hStamp hHost hSender field
      hMem⟩
    rw [← map_fst_standard completion stamp]
    exact List.mem_map_of_mem hMem
  rcases splitBlock_lines_completed
      (fun field hField => (hAdded field hField).1)
      (fun field hField => (hAdded field hField).2)
      hEnding hTexts with
    ⟨left, hLines, hSplit, hEnds⟩
  have hTimes :
      ∀ name ∈ standardNames,
        timesNamed name (lines content) =
          max 1 (timesNamed name texts) := by
    intro name hName
    have hHas := hasField_iff_timesNamed name texts
    rw [timesNamed, hSplit, List.countP_append,
      countP_addedLine completion stamp _ ending hName]
    change _ + timesNamed name texts = _
    split
    · rename_i hField
      have hPos := hHas.mp hField
      omega
    · rename_i hNone
      have hZero := mt hHas.mpr hNone
      omega
  refine ⟨⟨hLines, ?_, ?_⟩, hTimes⟩
  · intro name hName
    rw [hTimes name hName]
    omega
  · rw [hSplit]
    exact hEnds

end

end Smtp

end MailFilter
