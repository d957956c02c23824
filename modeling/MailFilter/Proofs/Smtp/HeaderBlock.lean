import MailFilter.Proofs.Message.Block
import MailFilter.Smtp.Receiver

/-
  What a receiver notes of the header block of a message is
  what stands in the block.

  The block is given by its fields, each with the lines that
  continue it, and the lines that are left after them. The
  receiver reads one line after the other instead.

  Key definitions include:
    * `Bytes.IsLine`
    * `Smtp.splitBlock`
    * `Smtp.Receiver.takeText`
    * `Smtp.fieldName`
    * `Smtp.seenIn`

  Main statements:
    * `Smtp.isEntry_of_mem_splitBlock`
    * `Smtp.Receiver.seen_takeTexts`
-/

namespace MailFilter

open Bytes

/- A line feed ends the line and stands nowhere else in it. -/
def Bytes.IsLine
    (line : Bytes) : Prop :=
  ∃ front : Bytes, line = front ++ [lf] ∧ lf ∉ front

namespace Smtp

------------------------------------------------------------
-- Fields Of A Block
------------------------------------------------------------

/-
  The fields at the start of lines, each with the lines that
  continue it, and the lines that are left.
-/
def splitBlock
    (lines : List Bytes) : List Bytes × List Bytes :=
  match lines with
  | [] => ([], [])
  | line :: rest =>
      if (headerName? line).isSome then
        let later := splitBlock (rest.dropWhile startsBlank)
        ((line :: rest.takeWhile startsBlank).flatten ::
          later.1, later.2)
      else
        ([], line :: rest)
termination_by lines.length
decreasing_by
  have hShort :=
    (List.dropWhile_suffix startsBlank (l := rest)).length_le
  simp only [List.length_cons]
  omega

/- A field that nothing continues, and no other one after it. -/
theorem splitBlock_single
    {line next : Bytes}
    (hName : (headerName? line).isSome = true)
    (hNone : (headerName? next).isSome = false)
    (hBlank : startsBlank next = false)
    (rest : List Bytes) :
    splitBlock (line :: next :: rest) = ([line], next :: rest) := by
  have hStop : splitBlock (next :: rest) = ([], next :: rest) := by
    rw [splitBlock, if_neg (by rw [hNone]; decide)]
  have hStart : ¬ startsBlank next = true := by
    rw [hBlank]
    decide
  rw [splitBlock, if_pos hName,
    List.dropWhile_cons_of_neg hStart, hStop,
    List.takeWhile_cons_of_neg hStart]
  simp

/- Nothing is lost by splitting. -/
theorem flatten_splitBlock
    (lines : List Bytes) :
    (splitBlock lines).1.flatten ++
        (splitBlock lines).2.flatten =
      lines.flatten := by
  fun_induction splitBlock lines with
  | case1 => rfl
  | case2 line rest hName later ih =>
      rw [List.flatten_cons, List.append_assoc, ih,
        ← List.flatten_append, List.cons_append,
        List.takeWhile_append_dropWhile]
  | case3 line rest hName => rfl

------------------------------------------------------------
-- Names
------------------------------------------------------------

/- The name of a field: what stands before the colon. -/
def fieldName
    (entry : Bytes) : Bytes :=
  entry.takeWhile (· != colon)

/- A line with a name has a colon after it. -/
theorem exists_of_headerName?
    {line name : Bytes}
    (hName : headerName? line = some name) :
    ∃ text : Bytes,
      line = name ++ colon :: text ∧
        name ≠ [] ∧ name.all isGraphic = true ∧
        colon ∉ name := by
  unfold headerName? at hName
  dsimp only at hName
  split at hName
  · rename_i hParts
    simp only [Bool.and_eq_true, decide_eq_true_eq,
      Bool.not_eq_true', List.isEmpty_eq_false_iff] at hParts
    rcases hParts with ⟨⟨hShort, hSome⟩, hGraphic⟩
    cases hName
    have hWhole := List.takeWhile_append_dropWhile
      (p := (· != colon)) (l := line)
    cases hDrop : line.dropWhile (· != colon) with
    | nil =>
        rw [hDrop, List.append_nil] at hWhole
        rw [hWhole] at hShort
        exact absurd hShort (Nat.lt_irrefl _)
    | cons b text =>
        have hColon := List.head?_dropWhile_not
          (· != colon) line
        rw [hDrop] at hColon
        have hEq : b = colon := by simpa using hColon
        rw [hDrop, hEq] at hWhole
        refine ⟨text, hWhole.symm, hSome, hGraphic, ?_⟩
        intro hMem
        have hNot := List.mem_takeWhile_imp hMem
        simp at hNot
  · cases hName

/- A line with a name starts with a printable character. -/
theorem isGraphic_of_headerName?
    {line name : Bytes}
    (hName : headerName? line = some name) :
    line.head?.any isGraphic = true := by
  rcases exists_of_headerName? hName with
    ⟨text, rfl, hSome, hGraphic, _⟩
  cases name with
  | nil => exact absurd rfl hSome
  | cons b name =>
      rw [List.all_cons, Bool.and_eq_true] at hGraphic
      exact hGraphic.1

theorem startsBlank_of_headerName?
    {line name : Bytes}
    (hName : headerName? line = some name) :
    line.startsBlank = false := by
  have hGraphic := isGraphic_of_headerName? hName
  cases line with
  | nil => rfl
  | cons b line =>
      simp only [startsBlank, List.head?_cons,
        Option.any_some] at hGraphic ⊢
      apply Bool.eq_false_iff.mpr
      intro hBlank
      simp only [isSpaceOrTab, Bool.or_eq_true,
        beq_iff_eq] at hBlank
      rcases hBlank with rfl | rfl <;>
        exact absurd hGraphic (by decide)

/- The lines that continue a line make a folded text with it. -/
theorem exists_folded_of_folds
    {text : Bytes}
    (hText : text.IsFolded)
    {folds : List Bytes}
    (hLines : ∀ line ∈ folds, IsLine line)
    (hBlank : ∀ line ∈ folds, startsBlank line = true) :
    ∃ whole : Bytes,
      text ++ [lf] ++ folds.flatten = whole ++ [lf] ∧
        whole.IsFolded := by
  induction folds generalizing text with
  | nil => exact ⟨text, by simp, hText⟩
  | cons fold folds ih =>
      rcases List.forall_mem_cons.mp hLines with
        ⟨⟨front, rfl, hFront⟩, hRest⟩
      rcases List.forall_mem_cons.mp hBlank with
        ⟨hStart, hRestBlank⟩
      have hNext : (text ++ lf :: front).IsFolded := by
        refine hText.append ⟨?_,
          isFolded_of_lf_not_mem hFront⟩
        intro _
        cases front with
        | nil => exact absurd hStart (by decide)
        | cons b front => exact hStart
      rcases ih hNext hRest hRestBlank with
        ⟨whole, hWhole, hFolded⟩
      refine ⟨whole, ?_, hFolded⟩
      rw [← hWhole]
      simp

/- A line with a colon and the lines that continue it. -/
theorem isField_of_folds
    {name text : Bytes}
    (hColon : colon ∉ name)
    (hLine : IsLine (name ++ colon :: text))
    {folds : List Bytes}
    (hLines : ∀ line ∈ folds, IsLine line)
    (hBlank : ∀ line ∈ folds, startsBlank line = true) :
    Bytes.IsField
      ((name ++ colon :: text) :: folds).flatten := by
  rcases hLine with ⟨front, hFront, hLf⟩
  have hText :
      ∃ first : Bytes,
        text = first ++ [lf] ∧ front = name ++ colon :: first := by
    rcases List.eq_nil_or_concat text with rfl | ⟨first, b, rfl⟩
    · have hLast := congrArg List.getLast? hFront
      exact absurd hLast (by simp +decide)
    · have hSplit :
          (name ++ colon :: first) ++ [b] = front ++ [lf] := by
        simpa using hFront
      rcases List.append_inj' hSplit rfl with ⟨hSame, hByte⟩
      cases hByte
      exact ⟨first, by simp, hSame.symm⟩
  rcases hText with ⟨first, rfl, rfl⟩
  have hFirst : Bytes.IsFolded first := by
    apply isFolded_of_lf_not_mem
    intro hMem
    exact hLf (by simp [hMem])
  rcases exists_folded_of_folds hFirst hLines hBlank with
    ⟨whole, hWhole, hFolded⟩
  refine ⟨name, whole, ?_, hColon, ?_, hFolded⟩
  · rw [List.flatten_cons, List.append_assoc, List.append_assoc,
      List.cons_append, List.cons_append, ← hWhole]
  · intro hMem
    exact hLf (by simp [hMem])

/- A line with a name and the lines that continue it. -/
theorem isField_of_headerName?
    {line name : Bytes}
    (hName : headerName? line = some name)
    (hLine : line.IsLine)
    {folds : List Bytes}
    (hLines : ∀ line ∈ folds, IsLine line)
    (hBlank : ∀ line ∈ folds, startsBlank line = true) :
    Bytes.IsField (line :: folds).flatten := by
  rcases exists_of_headerName? hName with
    ⟨text, rfl, _, _, hColon⟩
  exact isField_of_folds hColon hLine hLines hBlank

/- The fields of a block are entries that continue nothing. -/
theorem isEntry_of_mem_splitBlock
    {lines : List Bytes}
    (hLines : ∀ line ∈ lines, IsLine line) :
    ∀ entry ∈ (splitBlock lines).1,
      entry.IsField ∧ entry.IsEntry ∧
        entry.startsBlank = false := by
  fun_induction splitBlock lines with
  | case1 => simp
  | case2 line rest hSome later ih =>
      rcases Option.isSome_iff_exists.mp hSome with ⟨name, hName⟩
      rcases List.forall_mem_cons.mp hLines with
        ⟨hLine, hRest⟩
      have hFolds :
          ∀ other ∈ rest.takeWhile startsBlank,
            IsLine other := by
        intro other hOther
        exact hRest other
          ((List.takeWhile_prefix _).subset hOther)
      have hBlank :
          ∀ other ∈ rest.takeWhile startsBlank,
            startsBlank other = true := by
        intro other hOther
        exact List.mem_takeWhile_imp hOther
      have hLater :
          ∀ other ∈ rest.dropWhile startsBlank,
            IsLine other := by
        intro other hOther
        exact hRest other
          ((List.dropWhile_suffix _).subset hOther)
      have hGraphic := isGraphic_of_headerName? hName
      have hHead :
          (line :: rest.takeWhile startsBlank).flatten.head? =
            line.head? := by
        cases line with
        | nil => cases hGraphic
        | cons b line => rfl
      have hField :=
        isField_of_headerName? hName hLine hFolds hBlank
      refine List.forall_mem_cons.mpr
        ⟨⟨hField, ⟨Or.inl hField, ?_, ?_⟩, ?_⟩, ih hLater⟩
      · rw [hHead]
        intro hFeed
        rw [hFeed] at hGraphic
        exact absurd hGraphic (by decide)
      · rw [hHead]
        intro hReturn
        rw [hReturn] at hGraphic
        exact absurd hGraphic (by decide)
      · rw [startsBlank, hHead]
        exact startsBlank_of_headerName? hName
  | case3 => simp

------------------------------------------------------------
-- Tracking
------------------------------------------------------------

/- Note the fields of a block one after the other. -/
def seenIn
    (fields : List Bytes)
    (seen : Seen) : Seen :=
  fields.foldl
    (fun seen entry =>
      seen.record ((fieldName entry).map toLower))
    seen

/- The lines that are left after a block start with a blank one. -/
def endsBlank
    (left : List Bytes) : Bool :=
  left.head?.any fun line => IsBlank line

/- Note whether a blank line ends the block. -/
def noteEnd
    (left : List Bytes)
    (seen : Seen) : Seen :=
  if endsBlank left then { seen with terminated := true }
  else seen

namespace Receiver

/- Take a line whose dot has been dropped. -/
def takeText
    (receiver : Receiver)
    (text : Bytes) : Receiver :=
  let receiver := receiver.track text
  { receiver with
    lines := text :: receiver.lines
    size := receiver.size + text.length }

/- What is known of the header block. -/
def progress
    (receiver : Receiver) : Bool × Seen × Nat :=
  (receiver.inHeader, receiver.seen, receiver.headerEnd)

theorem progress_eq
    {receiver : Receiver}
    {inHeader : Bool}
    {seen : Seen}
    {headerEnd : Nat} :
    receiver.progress = (inHeader, seen, headerEnd) ↔
      receiver.inHeader = inHeader ∧
        receiver.seen = seen ∧
        receiver.headerEnd = headerEnd := by
  simp only [progress, Prod.mk.injEq]

theorem foldl_takeLine
    (receiver : Receiver)
    (lines : List Bytes) :
    lines.foldl takeLine receiver =
      (lines.map unstuff).foldl takeText receiver := by
  rw [List.foldl_map]
  rfl

/- All lines are kept. -/
theorem lines_takeTexts
    (receiver : Receiver)
    (texts : List Bytes) :
    (texts.foldl takeText receiver).lines =
      texts.reverse ++ receiver.lines := by
  induction texts generalizing receiver with
  | nil => rfl
  | cons text texts ih =>
      have hLines :
          (receiver.takeText text).lines =
            text :: receiver.lines := by
        simp only [takeText, track]
        repeat' split
        all_goals rfl
      rw [List.foldl_cons, ih, hLines]
      simp

/- After the header block nothing is noted any more. -/
theorem progress_closed
    {receiver : Receiver}
    (hClosed : receiver.inHeader = false)
    (text : Bytes) :
    (receiver.takeText text).progress = receiver.progress := by
  simp [takeText, track, hClosed, progress]

theorem progress_takeTexts_closed
    {receiver : Receiver}
    (hClosed : receiver.inHeader = false)
    (texts : List Bytes) :
    (texts.foldl takeText receiver).progress =
      receiver.progress := by
  induction texts generalizing receiver with
  | nil => rfl
  | cons text texts ih =>
      have hStep := progress_closed hClosed text
      have hNext :
          (receiver.takeText text).inHeader = false := by
        rw [(progress_eq.mp hStep).1, hClosed]
      rw [List.foldl_cons, ih hNext, hStep]

/- A blank line ends the header block. -/
theorem progress_blank
    {receiver : Receiver}
    (hOpen : receiver.inHeader = true)
    {text : Bytes}
    (hBlank : IsBlank text) :
    (receiver.takeText text).progress =
      (false, { receiver.seen with terminated := true },
          receiver.headerEnd) := by
  simp [takeText, track, hOpen, hBlank, progress]

/- A line that continues a field belongs to the block. -/
theorem progress_fold
    {receiver : Receiver}
    (hOpen : receiver.inHeader = true)
    (hAny : receiver.seen.any = true)
    {text : Bytes}
    (hFold : text.startsBlank = true) :
    (receiver.takeText text).progress =
      (true, receiver.seen,
          receiver.headerEnd + text.length) := by
  have hBlank : ¬ IsBlank text := by
    rintro (rfl | rfl) <;> exact absurd hFold (by decide)
  have hHead : text.head?.any isSpaceOrTab = true := hFold
  simp [takeText, track, trackField?, hOpen, hBlank, hAny,
    hHead, progress]

/- A line with a name starts a field. -/
theorem progress_field
    {receiver : Receiver}
    (hOpen : receiver.inHeader = true)
    {text name : Bytes}
    (hName : headerName? text = some name) :
    (receiver.takeText text).progress =
      (true, receiver.seen.record (name.map toLower),
          receiver.headerEnd + text.length) := by
  have hBlank : ¬ IsBlank text := by
    have hGraphic := isGraphic_of_headerName? hName
    rintro (rfl | rfl) <;> exact absurd hGraphic (by decide)
  have hHead : text.head?.any isSpaceOrTab = false :=
    startsBlank_of_headerName? hName
  simp [takeText, track, trackField?, hOpen, hBlank, hHead,
    hName, progress]

/- Any other line stops the block. -/
theorem progress_stop
    {receiver : Receiver}
    (hOpen : receiver.inHeader = true)
    {text : Bytes}
    (hBlank : ¬ IsBlank text)
    (hFold :
      receiver.seen.any = true → text.startsBlank = false)
    (hName : headerName? text = none) :
    (receiver.takeText text).progress =
      (false, receiver.seen, receiver.headerEnd) := by
  have hHead :
      (receiver.seen.any && text.head?.any isSpaceOrTab) =
        false := by
    cases hAny : receiver.seen.any with
    | false => rfl
    | true => exact hFold hAny
  simp [takeText, track, trackField?, hOpen, hBlank, hHead,
    hName, progress]

/- Lines that continue a field belong to the block. -/
theorem progress_takeTexts_folds
    {receiver : Receiver}
    (hOpen : receiver.inHeader = true)
    (hAny : receiver.seen.any = true)
    {folds : List Bytes}
    (hFolds : ∀ text ∈ folds, startsBlank text = true) :
    (folds.foldl takeText receiver).progress =
      (true, receiver.seen,
          receiver.headerEnd + folds.flatten.length) := by
  induction folds generalizing receiver with
  | nil => simp [progress, hOpen]
  | cons text folds ih =>
      rcases List.forall_mem_cons.mp hFolds with
        ⟨hFirst, hLater⟩
      rcases progress_eq.mp
          (progress_fold hOpen hAny hFirst) with
        ⟨hNextOpen, hNextSeen, hNextEnd⟩
      have hNextAny :
          (receiver.takeText text).seen.any = true := by
        rw [hNextSeen, hAny]
      rw [List.foldl_cons, ih hNextOpen hNextAny hLater,
        hNextSeen, hNextEnd, List.flatten_cons,
        List.length_append, Nat.add_assoc]

end Receiver

theorem any_record
    (seen : Seen)
    (name : Bytes) :
    (seen.record name).any = true := by
  unfold Seen.record
  dsimp only
  repeat' split
  all_goals rfl

theorem terminated_record
    (seen : Seen)
    (name : Bytes) :
    (seen.record name).terminated = seen.terminated := by
  unfold Seen.record
  dsimp only
  repeat' split
  all_goals rfl

/- Fields do not end a block. -/
theorem terminated_seenIn
    (fields : List Bytes)
    (seen : Seen) :
    (seenIn fields seen).terminated = seen.terminated := by
  induction fields generalizing seen with
  | nil => rfl
  | cons entry fields ih =>
      have hRest := ih
        (seen.record ((fieldName entry).map toLower))
      rw [terminated_record] at hRest
      exact hRest

/- The name of a field is that of its first line. -/
theorem fieldName_flatten
    {line name : Bytes}
    (hName : headerName? line = some name)
    (folds : List Bytes) :
    fieldName (line :: folds).flatten = name := by
  rcases exists_of_headerName? hName with
    ⟨text, rfl, _, _, hColon⟩
  rw [fieldName, List.flatten_cons, List.append_assoc]
  exact takeWhile_append_cons hColon _

/-
  What a receiver notes of lines is what stands in their
  header block.
-/
theorem Receiver.seen_takeTexts
    {receiver : Receiver}
    (hOpen : receiver.inHeader = true)
    {texts : List Bytes}
    (hFirst :
      receiver.seen.any = true →
        texts.head?.any startsBlank = false) :
    (texts.foldl takeText receiver).seen =
        noteEnd (splitBlock texts).2
            (seenIn (splitBlock texts).1 receiver.seen) ∧
      (texts.foldl takeText receiver).headerEnd =
        receiver.headerEnd +
          (splitBlock texts).1.flatten.length := by
  fun_induction splitBlock texts generalizing receiver with
  | case1 => exact ⟨rfl, rfl⟩
  | case2 line rest hSome later =>
      rename_i ih
      rcases Option.isSome_iff_exists.mp hSome with ⟨name, hName⟩
      -- The line with the name, then the lines that continue it.
      rcases progress_eq.mp (progress_field hOpen hName) with
        ⟨hOpenLine, hSeenLine, hEndLine⟩
      have hAnyLine :
          (receiver.takeText line).seen.any = true := by
        rw [hSeenLine, any_record]
      have hBlank :
          ∀ text ∈ rest.takeWhile startsBlank,
            startsBlank text = true :=
        fun text hText => List.mem_takeWhile_imp hText
      have hFolds :=
        progress_takeTexts_folds hOpenLine hAnyLine hBlank
      generalize hNext :
        (rest.takeWhile startsBlank).foldl takeText
          (receiver.takeText line) = next at hFolds
      rcases progress_eq.mp hFolds with
        ⟨hOpenNext, hSeenNext, hEndNext⟩
      have hStart := startsBlank_head?_dropWhile rest
      have hWhole :
          (line :: rest).foldl takeText receiver =
            (rest.dropWhile startsBlank).foldl takeText
                next := by
        rw [← hNext, ← List.foldl_append,
          List.takeWhile_append_dropWhile, List.foldl_cons]
      rcases ih hOpenNext (fun _ => hStart) with
        ⟨hSeen, hEnd⟩
      rw [hWhole]
      constructor
      · rw [hSeen, hSeenNext, hSeenLine]
        simp only [seenIn, List.foldl_cons,
          fieldName_flatten hName]
        rfl
      · rw [hEnd, hEndNext, hEndLine]
        simp only [later, List.flatten_cons, List.length_append]
        omega
  | case3 line rest hNone =>
      have hName := Option.not_isSome_iff_eq_none.mp hNone
      rw [List.foldl_cons]
      by_cases hBlank : IsBlank line
      · have hLine := progress_blank hOpen hBlank
        have hRest := progress_takeTexts_closed
          (progress_eq.mp hLine).1 rest
        have hEnds : endsBlank (line :: rest) = true := by
          simp [endsBlank, hBlank]
        rw [noteEnd, if_pos hEnds]
        exact (progress_eq.mp (hRest.trans hLine)).2
      · have hLine := progress_stop hOpen hBlank hFirst hName
        have hRest := progress_takeTexts_closed
          (progress_eq.mp hLine).1 rest
        have hEnds : endsBlank (line :: rest) = false := by
          simp [endsBlank, hBlank]
        rw [noteEnd, hEnds]
        exact (progress_eq.mp (hRest.trans hLine)).2

end Smtp

end MailFilter
