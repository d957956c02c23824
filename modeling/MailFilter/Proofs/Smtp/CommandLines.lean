import MailFilter.Proofs.Smtp.Framing

/-
  How the stream of a client is cut into command lines.

  A line that fits is read as it is, and one that is too long
  is passed over. A line that the client did not end before it
  closed the connection is read as well. If such a line is too
  long it is dropped piece by piece, and whether it was ended
  is not seen in the last piece.

  Key definitions include:
    * `Smtp.Fits`
    * `Smtp.IsCutOff`
    * `Smtp.LeavesPiece`

  Main statements:
    * `Smtp.skipLine_closed`
    * `Smtp.lines_of_readCommand_line`
    * `Smtp.lines_of_readCommand_through`
    * `Smtp.readCommand_cases`
    * `Smtp.exists_lines_of_splitMessage?`
-/

namespace MailFilter.Smtp

open Bytes

------------------------------------------------------------
-- Lines That Are Not Ended
------------------------------------------------------------

variable {limit : Nat}

/- What is short counts as a line if nothing can follow it. -/
theorem readLine_short
    {data : Bytes}
    (hNone : lf ∉ data)
    (hRoom : data.length < limit)
    (ending : Ending) :
    readLine limit ⟨data, ending⟩ =
      if ending = .closed ∧ data ≠ [] then
          .line data ⟨[], ending⟩
        else .ended ending := by
  rw [readLine, cut_short [] hNone hRoom]
  rfl

/- The last bytes of a client count as a line. -/
theorem readLine_closed
    {data : Bytes}
    (hNone : lf ∉ data)
    (hRoom : data.length < limit)
    (hSome : data ≠ []) :
    readLine limit ⟨data, .closed⟩ = .line data ⟨[], .closed⟩ := by
  rw [readLine_short hNone hRoom]
  exact if_pos ⟨rfl, hSome⟩

/-
  What is not ended is passed over in pieces, and the last
  piece, if it is shorter than the others, is taken for the
  end of the line.
-/
theorem skipLine_closed
    (positive : 0 < limit)
    {data : Bytes}
    (hNone : lf ∉ data) :
    skipLine limit positive ⟨data, .closed⟩ =
      if data.length % limit = 0 then .ended .closed
        else .through ⟨[], .closed⟩ := by
  induction hLength : data.length using Nat.strong_induction_on
    generalizing data with
  | _ length ih =>
      subst hLength
      rw [skipLine_eq]
      by_cases hRoom : data.length < limit
      · rw [Nat.mod_eq_of_lt hRoom]
        by_cases hSome : data = []
        · rw [hSome, readLine_nil positive]
          rfl
        · rw [readLine_closed hNone hRoom hSome,
            if_neg (by simpa using hSome)]
      · have hFull := Nat.le_of_not_lt hRoom
        have hLeft : lf ∉ data.drop limit :=
          fun hMem => hNone (List.mem_of_mem_drop hMem)
        rw [readLine_of_le hNone hFull]
        dsimp only
        rw [ih _ (by rw [List.length_drop]; omega) hLeft rfl,
          List.length_drop, ← Nat.mod_eq_sub_mod hFull]

------------------------------------------------------------
-- Command Lines
------------------------------------------------------------

/- A line that is short enough for a command. -/
def Fits
    (line : Bytes) : Prop :=
  (IsLine line ∧ line.length ≤ maxCommandLine) ∨
    (lf ∉ line ∧ line.length < maxCommandLine)

/- A line that was not ended and is too long for a command. -/
def IsCutOff
    (line : Bytes) : Prop :=
  lf ∉ line ∧ maxCommandLine ≤ line.length

/- The last piece of a line is shorter than all before. -/
def LeavesPiece
    (line : Bytes) : Prop :=
  line.length % maxCommandLine ≠ 0

/- A line that is short enough is read as it is. -/
theorem readCommand_line
    {line : Bytes}
    (hLine : IsLine line)
    (hFits : line.length ≤ maxCommandLine)
    (rest : Bytes)
    (ending : Ending) :
    readCommand ⟨line ++ rest, ending⟩ =
      .line line ⟨rest, ending⟩ := by
  rw [readCommand, readLine_line hLine hFits]

/- One that is not is passed over, and nothing else is. -/
theorem readCommand_overlong
    {line : Bytes}
    (hLine : IsLine line)
    (hLong : maxCommandLine < line.length)
    (rest : Bytes)
    (ending : Ending) :
    readCommand ⟨line ++ rest, ending⟩ =
      .tooLong (.through ⟨rest, ending⟩) := by
  rcases readLine_tooLong hLine hLong rest ending with
    ⟨hRead, hLeft⟩
  rw [readCommand, hRead]
  dsimp only
  rw [skipLine_line (by decide) hLeft]

/- What is read is the first line, and it is short enough. -/
theorem lines_of_readCommand_line
    {input rest : Inbound}
    {text : Bytes}
    (hRead : readCommand input = .line text rest) :
    lines input.data = text :: lines rest.data ∧
      Fits text := by
  rcases input with ⟨data, ending⟩
  induction data using lineInduction with
  | tail data hNone =>
      by_cases hRoom : data.length < maxCommandLine
      · rw [readCommand, readLine_short hNone hRoom] at hRead
        by_cases hClosed : ending = .closed ∧ data ≠ []
        · rw [if_pos hClosed] at hRead
          cases hRead
          exact ⟨lines_of_lf_not_mem hNone hClosed.2,
            Or.inr ⟨hNone, hRoom⟩⟩
        · rw [if_neg hClosed] at hRead
          cases hRead
      · rw [readCommand,
          readLine_of_le hNone (Nat.le_of_not_lt hRoom)]
          at hRead
        cases hRead
  | line line more hLine _ =>
      by_cases hFits : line.length ≤ maxCommandLine
      · rw [readCommand_line hLine hFits] at hRead
        cases hRead
        exact ⟨lines_cons hLine more, Or.inl ⟨hLine, hFits⟩⟩
      · rw [readCommand_overlong hLine (Nat.lt_of_not_le hFits)]
          at hRead
        cases hRead

/- What is passed over is the first line, which is too long. -/
theorem lines_of_readCommand_through
    {input rest : Inbound}
    (hRead : readCommand input = .tooLong (.through rest)) :
    ∃ line,
      lines input.data = line :: lines rest.data ∧
        maxCommandLine < line.length := by
  rcases input with ⟨data, ending⟩
  induction data using lineInduction with
  | tail data hNone =>
      by_cases hRoom : data.length < maxCommandLine
      · rw [readCommand, readLine_short hNone hRoom] at hRead
        by_cases hClosed : ending = .closed ∧ data ≠ []
        · rw [if_pos hClosed] at hRead
          cases hRead
        · rw [if_neg hClosed] at hRead
          cases hRead
      · have hFull := Nat.le_of_not_lt hRoom
        have hLeft : lf ∉ data.drop maxCommandLine :=
          fun hMem => hNone (List.mem_of_mem_drop hMem)
        rw [readCommand, readLine_of_le hNone hFull] at hRead
        have hSkip := CommandRead.tooLong.inj hRead
        have hMore : data.drop maxCommandLine ≠ [] := by
          intro hNothing
          rw [hNothing, skipLine_eq, readLine_nil (by decide)]
            at hSkip
          cases hSkip
        have hLong : maxCommandLine < data.length := by
          rwa [ne_eq, List.drop_eq_nil_iff, Nat.not_le]
            at hMore
        rcases skipLine_of_lf_not_mem
            (show 0 < maxCommandLine by decide) hLeft ending with
          hEnded | hThrough
        · rw [hEnded] at hSkip
          cases hSkip
        · rw [hThrough] at hSkip
          cases hSkip
          exact ⟨data,
            lines_of_lf_not_mem hNone (by rintro rfl; simp at hMore),
            hLong⟩
  | line line more hLine _ =>
      by_cases hFits : line.length ≤ maxCommandLine
      · rw [readCommand_line hLine hFits] at hRead
        cases hRead
      · have hLong := Nat.lt_of_not_le hFits
        rw [readCommand_overlong hLine hLong] at hRead
        cases hRead
        exact ⟨line, lines_cons hLine more, hLong⟩

/- What can be read when a command is to be read. -/
theorem readCommand_cases
    (data : Bytes) :
    (data = [] ∧
        readCommand ⟨data, .closed⟩ = .ended .closed) ∨
      (∃ line rest,
        lines data = line :: lines rest ∧
          Fits line ∧
          readCommand ⟨data, .closed⟩ =
            .line line ⟨rest, .closed⟩) ∨
      (∃ line rest,
        lines data = line :: lines rest ∧
          IsLine line ∧
          maxCommandLine < line.length ∧
          readCommand ⟨data, .closed⟩ =
            .tooLong (.through ⟨rest, .closed⟩)) ∨
      (lines data = [data] ∧
        IsCutOff data ∧
        (LeavesPiece data ∧
              readCommand ⟨data, .closed⟩ =
                .tooLong (.through ⟨[], .closed⟩) ∨
            ¬ LeavesPiece data ∧
              readCommand ⟨data, .closed⟩ =
                .tooLong (.ended .closed))) := by
  induction data using lineInduction with
  | tail data hNone =>
      by_cases hSome : data = []
      · subst hSome
        refine Or.inl ⟨rfl, ?_⟩
        rw [readCommand, readLine_nil (by decide)]
      · have hLines := lines_of_lf_not_mem hNone hSome
        by_cases hRoom : data.length < maxCommandLine
        · refine Or.inr (Or.inl ⟨data, [], hLines,
            Or.inr ⟨hNone, hRoom⟩, ?_⟩)
          rw [readCommand, readLine_closed hNone hRoom hSome]
        · have hFull := Nat.le_of_not_lt hRoom
          have hLeft : lf ∉ data.drop maxCommandLine :=
            fun hMem => hNone (List.mem_of_mem_drop hMem)
          refine Or.inr (Or.inr (Or.inr
            ⟨hLines, ⟨hNone, hFull⟩, ?_⟩))
          rw [readCommand, readLine_of_le hNone hFull]
          dsimp only
          rw [skipLine_closed (by decide) hLeft,
            List.length_drop, ← Nat.mod_eq_sub_mod hFull]
          by_cases hZero : data.length % maxCommandLine = 0
          · rw [if_pos hZero]
            exact Or.inr ⟨fun hRest => hRest hZero, rfl⟩
          · rw [if_neg hZero]
            exact Or.inl ⟨hZero, rfl⟩
  | line line rest hLine _ =>
      have hLines := lines_cons hLine rest
      by_cases hFits : line.length ≤ maxCommandLine
      · refine Or.inr (Or.inl ⟨line, rest, hLines,
          Or.inl ⟨hLine, hFits⟩, ?_⟩)
        exact readCommand_line hLine hFits rest .closed
      · have hLong := Nat.lt_of_not_le hFits
        refine Or.inr (Or.inr (Or.inl
          ⟨line, rest, hLines, hLine, hLong, ?_⟩))
        exact readCommand_overlong hLine hLong rest .closed

------------------------------------------------------------
-- Messages
------------------------------------------------------------

/- The line that ends a message is the first one that can. -/
theorem exists_lines_of_splitMessage?
    {data : Bytes}
    {before : List Bytes}
    {rest : Bytes}
    (hSplit : splitMessage? data = some (before, rest)) :
    ∃ last,
      lines data = before ++ last :: lines rest ∧
        IsTerminator last ∧
        ∀ line ∈ before, ¬ IsTerminator line := by
  induction data using lineInduction generalizing before with
  | tail data hNone =>
      rw [splitMessage?_of_lf_not_mem hNone] at hSplit
      cases hSplit
  | line line more hLine ih =>
      rw [splitMessage?_cons hLine] at hSplit
      rw [lines_cons hLine]
      by_cases hEnds : IsTerminator line
      · rw [if_pos hEnds] at hSplit
        cases hSplit
        exact ⟨line, rfl, hEnds, by simp⟩
      · rw [if_neg hEnds, Option.map_eq_some_iff] at hSplit
        rcases hSplit with ⟨⟨lines, after⟩, hMore, hSame⟩
        cases hSame
        rcases ih hMore with ⟨last, hLines, hLast, hBefore⟩
        refine ⟨last, ?_, hLast, ?_⟩
        · rw [hLines]
          rfl
        · exact List.forall_mem_cons.mpr ⟨hEnds, hBefore⟩

/- No line ends a message that does not end. -/
theorem not_isTerminator_of_splitMessage?
    {data : Bytes}
    (hSplit : splitMessage? data = none) :
    ∀ line ∈ lines data, ¬ IsTerminator line := by
  intro line hMem hEnds
  have hSome :
      ∃ text ∈ lines (⟨data, .closed⟩ : Inbound).data,
        IsTerminator text :=
    ⟨line, hMem, hEnds⟩
  rcases exists_rest_of_mem hSome with ⟨rest, hRest⟩
  rw [rest?_readMessage, hSplit] at hRest
  cases hRest

end MailFilter.Smtp
