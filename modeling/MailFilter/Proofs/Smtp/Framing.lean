import MailFilter.Proofs.Text.Lines
import MailFilter.Smtp.Framing

/-
  Where the message that follows a DATA command ends.

  The lines of the stream are read in pieces if they are too
  long. All the same the message ends with the first line that
  consists of one dot, and what comes after that line is left.

  Key definitions include:
    * `Smtp.splitMessage?`

  Main statements:
    * `Smtp.readMessageFrom_cons`
    * `Smtp.readMessage_eq`
    * `Smtp.rest?_readMessage`
-/

namespace MailFilter.Smtp

open Bytes

------------------------------------------------------------
-- Reading A Line
------------------------------------------------------------

/- A line is found if there is room for it. -/
theorem cut_line
    (found : Bytes)
    {front : Bytes}
    (hFront : lf ∉ front)
    {room : Nat}
    (hRoom : front.length < room)
    (rest : Bytes) :
    cut found room (front ++ lf :: rest) =
      .line (found.reverse ++ front ++ [lf]) rest := by
  induction front generalizing found room with
  | nil =>
      cases room with
      | zero => exact absurd hRoom (Nat.not_lt_zero _)
      | succ room => simp [cut]
  | cons b front ih =>
      rw [List.mem_cons, not_or] at hFront
      cases room with
      | zero => exact absurd hRoom (Nat.not_lt_zero _)
      | succ room =>
          have hNot : (b == lf) = false :=
            beq_eq_false_iff_ne.mpr (Ne.symm hFront.1)
          rw [List.cons_append, cut, hNot, if_neg (by decide),
            ih _ hFront.2 (Nat.lt_of_succ_lt_succ hRoom)]
          simp

/- As many bytes as there is room for, without a line feed. -/
theorem cut_full
    (found : Bytes)
    {front : Bytes}
    (hFront : lf ∉ front)
    (rest : Bytes) :
    cut found front.length (front ++ rest) = .full rest := by
  induction front generalizing found with
  | nil => simp [cut]
  | cons b front ih =>
      rw [List.mem_cons, not_or] at hFront
      have hNot : (b == lf) = false :=
        beq_eq_false_iff_ne.mpr (Ne.symm hFront.1)
      rw [List.length_cons, List.cons_append, cut, hNot,
        if_neg (by decide), ih _ hFront.2]

/- Fewer bytes than there is room for, without a line feed. -/
theorem cut_short
    (found : Bytes)
    {data : Bytes}
    (hNone : lf ∉ data)
    {room : Nat}
    (hRoom : data.length < room) :
    cut found room data = .short (found.reverse ++ data) := by
  induction data generalizing found room with
  | nil =>
      cases room with
      | zero => exact absurd hRoom (Nat.not_lt_zero _)
      | succ room => simp [cut]
  | cons b data ih =>
      rw [List.mem_cons, not_or] at hNone
      cases room with
      | zero => exact absurd hRoom (Nat.not_lt_zero _)
      | succ room =>
          have hNot : (b == lf) = false :=
            beq_eq_false_iff_ne.mpr (Ne.symm hNone.1)
          rw [cut, hNot, if_neg (by decide),
            ih _ hNone.2 (Nat.lt_of_succ_lt_succ hRoom)]
          simp

variable {limit : Nat}
variable {ending : Ending}

/- A line that fits is read. -/
theorem readLine_line
    {line : Bytes}
    (hLine : line.IsLine)
    (hFits : line.length ≤ limit)
    (rest : Bytes)
    (ending : Ending) :
    readLine limit ⟨line ++ rest, ending⟩ =
      .line line ⟨rest, ending⟩ := by
  rcases hLine with ⟨front, rfl, hFront⟩
  rw [List.length_append, List.length_singleton] at hFits
  have hCut := cut_line [] hFront hFits rest
  rw [readLine, List.append_assoc, List.singleton_append, hCut]
  rfl

/- Of what goes on for longer the first bytes are dropped. -/
theorem readLine_full
    {front : Bytes}
    (hFront : lf ∉ front)
    (rest : Bytes)
    (ending : Ending) :
    readLine front.length ⟨front ++ rest, ending⟩ =
      .tooLong ⟨rest, ending⟩ := by
  rw [readLine, cut_full [] hFront]

/- What is left of a line that does not fit is a line. -/
theorem readLine_tooLong
    {line : Bytes}
    (hLine : line.IsLine)
    (hLong : limit < line.length)
    (rest : Bytes)
    (ending : Ending) :
    readLine limit ⟨line ++ rest, ending⟩ =
        .tooLong ⟨line.drop limit ++ rest, ending⟩ ∧
      IsLine (line.drop limit) := by
  rcases hLine with ⟨front, rfl, hFront⟩
  rw [List.length_append, List.length_singleton] at hLong
  have hShort : limit ≤ front.length := by omega
  have hTaken : lf ∉ front.take limit :=
    fun hMem => hFront (List.mem_of_mem_take hMem)
  have hLeft : lf ∉ front.drop limit :=
    fun hMem => hFront (List.mem_of_mem_drop hMem)
  have hDrop :
      (front ++ [lf]).drop limit = front.drop limit ++ [lf] :=
    List.drop_append_of_le_length hShort
  refine ⟨?_, front.drop limit, hDrop, hLeft⟩
  have hRead := readLine_full hTaken
    ((front ++ [lf]).drop limit ++ rest) ending
  rw [List.length_take, Nat.min_eq_left hShort] at hRead
  rw [← hRead, hDrop, ← List.append_assoc, ← List.append_assoc,
    List.take_append_drop]

/- So are those of what has no line feed at all. -/
theorem readLine_of_le
    {data : Bytes}
    (hNone : lf ∉ data)
    (hFull : limit ≤ data.length)
    (ending : Ending) :
    readLine limit ⟨data, ending⟩ =
      .tooLong ⟨data.drop limit, ending⟩ := by
  have hTaken : lf ∉ data.take limit :=
    fun hMem => hNone (List.mem_of_mem_take hMem)
  have hRead := readLine_full hTaken (data.drop limit) ending
  rw [List.length_take, Nat.min_eq_left hFull,
    List.take_append_drop] at hRead
  exact hRead

/-
  Without a line feed there is no more than one line, and that
  only if the client closed the connection after it.
-/
theorem readLine_of_lf_not_mem
    (limit : Nat)
    {data : Bytes}
    (hNone : lf ∉ data)
    (ending : Ending) :
    (limit ≤ data.length ∧
        readLine limit ⟨data, ending⟩ =
          .tooLong ⟨data.drop limit, ending⟩) ∨
      readLine limit ⟨data, ending⟩ = .ended ending ∨
      readLine limit ⟨data, ending⟩ =
        .line data ⟨[], ending⟩ := by
  by_cases hRoom : data.length < limit
  · rw [readLine, cut_short [] hNone hRoom]
    dsimp only
    split
    · exact Or.inr (Or.inr rfl)
    · exact Or.inr (Or.inl rfl)
  · have hFull := Nat.le_of_not_lt hRoom
    exact Or.inl ⟨hFull, readLine_of_le hNone hFull ending⟩

------------------------------------------------------------
-- Passing Over A Line
------------------------------------------------------------

/- Passing over a line goes by what can be read. -/
theorem skipLine_eq
    (positive : 0 < limit)
    (input : Inbound) :
    skipLine limit positive input =
      match readLine limit input with
      | .line _ rest => .through rest
      | .tooLong rest => skipLine limit positive rest
      | .ended ending => .ended ending := by
  rw [skipLine]
  split <;> (rename_i hRead; rw [hRead])

/- The rest of a line is passed over, however long it is. -/
theorem skipLine_line
    (positive : 0 < limit)
    {line : Bytes}
    (hLine : line.IsLine)
    (rest : Bytes)
    (ending : Ending) :
    skipLine limit positive ⟨line ++ rest, ending⟩ =
      .through ⟨rest, ending⟩ := by
  induction hLength : line.length using Nat.strong_induction_on
    generalizing line with
  | _ length ih =>
      subst hLength
      rw [skipLine_eq]
      by_cases hFits : line.length ≤ limit
      · rw [readLine_line hLine hFits]
      · rcases readLine_tooLong hLine (Nat.lt_of_not_le hFits)
            rest ending with
          ⟨hRead, hLeft⟩
        have hSome := List.length_pos_iff.mpr hLine.ne_nil
        rw [hRead]
        refine ih _ ?_ hLeft rfl
        rw [List.length_drop]
        omega

/- Without a line feed nothing is left when it is passed over. -/
theorem skipLine_of_lf_not_mem
    (positive : 0 < limit)
    {data : Bytes}
    (hNone : lf ∉ data)
    (ending : Ending) :
    skipLine limit positive ⟨data, ending⟩ = .ended ending ∨
      skipLine limit positive ⟨data, ending⟩ =
        .through ⟨[], ending⟩ := by
  induction hLength : data.length using Nat.strong_induction_on
    generalizing data with
  | _ length ih =>
      subst hLength
      rw [skipLine_eq]
      rcases readLine_of_lf_not_mem limit hNone ending with
        ⟨hRoom, hRead⟩ | hRead | hRead
      · have hLeft : lf ∉ data.drop limit :=
          fun hMem => hNone (List.mem_of_mem_drop hMem)
        rw [hRead]
        refine ih _ ?_ hLeft rfl
        rw [List.length_drop]
        omega
      · rw [hRead]
        exact Or.inl rfl
      · rw [hRead]
        exact Or.inr rfl

------------------------------------------------------------
-- Reading A Message
------------------------------------------------------------

/-
  The lines before the one that ends a message, and what
  comes after that line. Gives nothing if there is none.
-/
def splitMessage?
    (data : Bytes) : Option (List Bytes × Bytes) :=
  match (lines data).dropWhile (¬ IsTerminator ·) with
  | [] => none
  | _ :: later =>
      some ((lines data).takeWhile (¬ IsTerminator ·),
        later.flatten)

/- A line without a line feed ends no message. -/
theorem not_isTerminator_of_lf_not_mem
    {line : Bytes}
    (hNone : lf ∉ line) :
    ¬ IsTerminator line := by
  rintro (rfl | rfl)
  · exact hNone (by decide)
  · exact hNone (by decide)

theorem splitMessage?_of_lf_not_mem
    {data : Bytes}
    (hNone : lf ∉ data) :
    splitMessage? data = none := by
  by_cases hSome : data = []
  · subst hSome
    rfl
  · have hNot := not_isTerminator_of_lf_not_mem hNone
    rw [splitMessage?, lines_of_lf_not_mem hNone hSome]
    simp [hNot]

/- The first line either ends the message or belongs to it. -/
theorem splitMessage?_cons
    {line : Bytes}
    (hLine : line.IsLine)
    (rest : Bytes) :
    splitMessage? (line ++ rest) =
      if IsTerminator line then some ([], rest)
        else
          (splitMessage? rest).map fun (lines, after) =>
            (line :: lines, after) := by
  rw [splitMessage?, lines_cons hLine]
  by_cases hEnds : IsTerminator line
  · simp [hEnds, flatten_lines]
  · rw [if_neg hEnds, splitMessage?,
      List.dropWhile_cons_of_pos (by simpa using hEnds),
      List.takeWhile_cons_of_pos (by simpa using hEnds)]
    split <;> rfl

/- The first line that can end the message ends it. -/
theorem splitMessage?_of_lines
    {data last : Bytes}
    {before later : List Bytes}
    (hData : lines data = before ++ last :: later)
    (hBefore : ∀ line ∈ before, ¬ IsTerminator line)
    (hEnds : IsTerminator last) :
    splitMessage? data = some (before, later.flatten) := by
  have hGoesOn :
      ∀ line ∈ before, (! IsTerminator line : Bool) = true :=
    fun line hMem => by simpa using hBefore line hMem
  rw [splitMessage?, hData]
  simp only [decide_not]
  rw [List.dropWhile_append_of_pos hGoesOn,
    List.takeWhile_append_of_pos hGoesOn,
    List.dropWhile_cons_of_neg (by simpa using hEnds),
    List.takeWhile_cons_of_neg (by simpa using hEnds),
    List.append_nil]

theorem splitMessage?_of_forall
    {data : Bytes}
    (hNone : ∀ line ∈ lines data, ¬ IsTerminator line) :
    splitMessage? data = none := by
  have hAll :
      (lines data).dropWhile (¬ IsTerminator ·) = [] := by
    rw [List.dropWhile_eq_nil_iff]
    exact fun line hMem => decide_eq_true (hNone line hMem)
  rw [splitMessage?, hAll]

/- Reading a message goes by what can be read. -/
theorem readMessageFrom_eq
    (lines : List Bytes)
    (overlong : Bool)
    (input : Inbound) :
    readMessageFrom lines overlong input =
      match readLine maxDataLine input with
      | .line text rest =>
          if IsTerminator text then
            if overlong then .tooLong rest
            else .complete lines.reverse rest
          else if overlong then
            readMessageFrom lines true rest
          else
            readMessageFrom (text :: lines) false rest
      | .tooLong rest =>
          match skipLine maxDataLine (by decide) rest with
          | .through rest => readMessageFrom lines true rest
          | .ended ending => .ended ending
      | .ended ending => .ended ending := by
  rw [readMessageFrom]
  split
  · rename_i hRead
    rw [hRead]
  · rename_i hRead
    rw [hRead]
    dsimp only
    split <;> (rename_i hSkip; rw [hSkip])
  · rename_i hRead
    rw [hRead]

theorem readLine_nil
    (positive : 0 < limit)
    (ending : Ending) :
    readLine limit ⟨[], ending⟩ = .ended ending := by
  rw [readLine, cut_short [] (by simp) positive]
  simp

theorem readMessageFrom_nil
    (lines : List Bytes)
    (overlong : Bool)
    (ending : Ending) :
    readMessageFrom lines overlong ⟨[], ending⟩ =
      .ended ending := by
  rw [readMessageFrom_eq, readLine_nil (by decide)]

/- Without a line feed no message ends. -/
theorem readMessageFrom_of_lf_not_mem
    (lines : List Bytes)
    (overlong : Bool)
    {data : Bytes}
    (hNone : lf ∉ data)
    (ending : Ending) :
    readMessageFrom lines overlong ⟨data, ending⟩ =
      .ended ending := by
  rw [readMessageFrom_eq]
  rcases readLine_of_lf_not_mem maxDataLine hNone ending with
    ⟨_, hRead⟩ | hRead | hRead
  · have hLeft : lf ∉ data.drop maxDataLine :=
      fun hMem => hNone (List.mem_of_mem_drop hMem)
    rw [hRead]
    dsimp only
    rcases skipLine_of_lf_not_mem
        (show 0 < maxDataLine by decide) hLeft ending with
      hSkip | hSkip
    · rw [hSkip]
    · rw [hSkip]
      exact readMessageFrom_nil lines true ending
  · rw [hRead]
  · have hNot := not_isTerminator_of_lf_not_mem hNone
    rw [hRead]
    dsimp only
    rw [if_neg hNot, readMessageFrom_nil, readMessageFrom_nil,
      ite_self]

/- A line of any length either ends the message or not. -/
theorem readMessageFrom_cons
    (lines : List Bytes)
    (overlong : Bool)
    {line : Bytes}
    (hLine : line.IsLine)
    (rest : Bytes)
    (ending : Ending) :
    readMessageFrom lines overlong ⟨line ++ rest, ending⟩ =
      if IsTerminator line then
          if overlong then .tooLong ⟨rest, ending⟩
          else .complete lines.reverse ⟨rest, ending⟩
        else if overlong ∨ maxDataLine < line.length then
          readMessageFrom lines true ⟨rest, ending⟩
        else
          readMessageFrom (line :: lines) false
            ⟨rest, ending⟩ := by
  rw [readMessageFrom_eq]
  by_cases hFits : line.length ≤ maxDataLine
  · have hShort := Nat.not_lt_of_le hFits
    rw [readLine_line hLine hFits]
    simp only [hShort, or_false]
  · have hLong := Nat.lt_of_not_le hFits
    have hNot : ¬ IsTerminator line := by
      rintro (rfl | rfl)
      · exact absurd hLong (by decide)
      · exact absurd hLong (by decide)
    rcases readLine_tooLong hLine hLong rest ending with
      ⟨hRead, hLeft⟩
    rw [hRead]
    dsimp only
    rw [skipLine_line (by decide) hLeft, if_neg hNot,
      if_pos (Or.inr hLong)]

/-
  What is read are the lines up to the one that ends the
  message, unless one of them is too long.
-/
theorem readMessageFrom_eq_split
    (lines : List Bytes)
    (overlong : Bool)
    (data : Bytes)
    (ending : Ending) :
    readMessageFrom lines overlong ⟨data, ending⟩ =
      match splitMessage? data with
      | none => .ended ending
      | some (more, rest) =>
          if overlong = true ∨
              ∃ line ∈ more, maxDataLine < line.length then
            .tooLong ⟨rest, ending⟩
          else
            .complete (lines.reverse ++ more)
              ⟨rest, ending⟩ := by
  induction data using lineInduction
    generalizing lines overlong with
  | tail data hNone =>
      rw [splitMessage?_of_lf_not_mem hNone,
        readMessageFrom_of_lf_not_mem _ _ hNone]
  | line line rest hLine ih =>
      rw [splitMessage?_cons hLine,
        readMessageFrom_cons _ _ hLine]
      by_cases hEnds : IsTerminator line
      · rw [if_pos hEnds, if_pos hEnds]
        simp
      · rw [if_neg hEnds, if_neg hEnds]
        by_cases hLong : overlong = true ∨ maxDataLine < line.length
        · rw [if_pos hLong, ih]
          cases splitMessage? rest with
          | none => rfl
          | some parts =>
              have hEither :
                  overlong = true ∨
                    ∃ text ∈ line :: parts.1,
                      maxDataLine < text.length := by
                rw [List.exists_mem_cons_iff, ← or_assoc]
                exact Or.inl hLong
              simp only [Option.map_some, true_or, if_true,
                if_pos hEither]
        · rw [if_neg hLong, ih]
          rw [not_or] at hLong
          cases splitMessage? rest with
          | none => rfl
          | some parts =>
              simp only [Option.map_some, hLong.1, hLong.2,
                List.exists_mem_cons_iff, false_or,
                Bool.false_eq_true, List.reverse_cons,
                List.append_assoc, List.singleton_append]

/- Where a message ends does not depend on its lines. -/
theorem readMessage_eq
    (input : Inbound) :
    readMessage input =
      match splitMessage? input.data with
      | none => .ended input.ending
      | some (lines, rest) =>
          if ∃ line ∈ lines, maxDataLine < line.length then
            .tooLong ⟨rest, input.ending⟩
          else
            .complete lines ⟨rest, input.ending⟩ := by
  rw [readMessage, readMessageFrom_eq_split]
  simp

/- The lines in front of the last one are read if they fit. -/
theorem readMessage_of_lines
    {lines : List Bytes}
    (hLines :
      ∀ line ∈ lines,
        line.IsLine ∧ ¬ IsTerminator line ∧
          line.length ≤ maxDataLine)
    {last : Bytes}
    (hLast : IsTerminator last)
    (rest : Bytes)
    (ending : Ending) :
    readMessage ⟨lines.flatten ++ (last ++ rest), ending⟩ =
      .complete lines ⟨rest, ending⟩ := by
  have hLine : last.IsLine := by
    rcases hLast with rfl | rfl
    · exact ⟨[dot, cr], rfl, by decide⟩
    · exact ⟨[dot], rfl, by decide⟩
  have hCut := lines_flatten_append
    (fun line hMem => (hLines line hMem).1) (last ++ rest)
  rw [lines_cons hLine] at hCut
  have hSplit :=
    splitMessage?_of_lines hCut
      (fun line hMem => (hLines line hMem).2.1) hLast
  rw [flatten_lines] at hSplit
  have hFit : ¬ ∃ line ∈ lines, maxDataLine < line.length := by
    rintro ⟨line, hMem, hLong⟩
    exact absurd hLong (Nat.not_lt_of_le (hLines line hMem).2.2)
  rw [readMessage_eq]
  simp only [hSplit, if_neg hFit]

/- The stream after a message goes on behind its last line. -/
theorem rest?_readMessage
    (input : Inbound) :
    (readMessage input).rest? =
      (splitMessage? input.data).map fun (_, rest) =>
        ⟨rest, input.ending⟩ := by
  rw [readMessage_eq]
  cases splitMessage? input.data with
  | none => rfl
  | some parts =>
      dsimp only
      split <;> rfl

/- A message that has a last line ends. -/
theorem exists_rest_of_mem
    {input : Inbound}
    (hEnds : ∃ line ∈ lines input.data, IsTerminator line) :
    ∃ rest, (readMessage input).rest? = some rest := by
  rcases hEnds with ⟨line, hMem, hLine⟩
  rw [rest?_readMessage, splitMessage?]
  split
  · rename_i hAll
    have hNot := List.dropWhile_eq_nil_iff.mp hAll line hMem
    exact absurd hLine (by simpa using hNot)
  · exact ⟨_, rfl⟩

end MailFilter.Smtp
