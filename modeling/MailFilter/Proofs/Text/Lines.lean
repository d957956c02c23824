import MailFilter.Proofs.Smtp.HeaderBlock

/-
  How a byte string is cut into lines.

  A byte string is a row of lines, each of which ends in its
  only line feed, and an end that has none. What holds of such
  an end, and of a line in front of what it holds of, holds of
  every byte string.

  Main statements:
    * `Bytes.lineInduction`
    * `Bytes.lines_cons`
    * `Bytes.lines_flatten_append`
    * `Bytes.isLine_of_lines_eq`
    * `Bytes.isLine_or_of_mem_lines`
-/

namespace MailFilter

namespace Bytes

------------------------------------------------------------
-- Induction
------------------------------------------------------------

/- Every byte string is a row of lines with an end. -/
@[elab_as_elim]
theorem lineInduction
    {motive : Bytes → Prop}
    (tail : ∀ data, lf ∉ data → motive data)
    (line :
      ∀ line rest, IsLine line → motive rest →
        motive (line ++ rest))
    (data : Bytes) :
    motive data := by
  induction hLength : data.length using Nat.strong_induction_on
    generalizing data with
  | _ length ih =>
      by_cases hMem : lf ∈ data
      · rcases List.eq_append_cons_of_mem hMem with
          ⟨front, rest, rfl, hFront⟩
        simp only [List.length_append, List.length_cons]
          at hLength
        have hRest := ih rest.length (by omega) rest rfl
        have hLine := line (front ++ [lf]) rest
          ⟨front, rfl, hFront⟩ hRest
        simpa using hLine
      · exact tail data hMem

------------------------------------------------------------
-- Lines
------------------------------------------------------------

theorem IsLine.ne_nil
    {line : Bytes}
    (hLine : line.IsLine) :
    line ≠ [] := by
  rcases hLine with ⟨front, rfl, _⟩
  simp

/- The lines that were found before stand in front. -/
theorem linesFrom_eq
    (line : Bytes)
    (done : List Bytes)
    (data : Bytes) :
    linesFrom line done data =
      done.reverse ++ linesFrom line [] data := by
  induction data generalizing line done with
  | nil =>
      unfold linesFrom
      split <;> simp
  | cons b rest ih =>
      unfold linesFrom
      split
      · rw [ih [] (_ :: done), ih [] [_]]
        simp
      · exact ih _ _

/- What has no line feed is put to the line under way. -/
theorem linesFrom_append
    (line : Bytes)
    {front : Bytes}
    (hFront : lf ∉ front)
    (rest : Bytes) :
    linesFrom line [] (front ++ rest) =
      linesFrom (front.reverse ++ line) [] rest := by
  induction front generalizing line with
  | nil => rfl
  | cons b front ih =>
      rw [List.mem_cons, not_or] at hFront
      have hNot : (b == lf) = false :=
        beq_eq_false_iff_ne.mpr (Ne.symm hFront.1)
      rw [List.cons_append, linesFrom, hNot,
        if_neg (by decide), ih _ hFront.2]
      simp

/- A line in front is the first one. -/
theorem lines_cons
    {line : Bytes}
    (hLine : line.IsLine)
    (rest : Bytes) :
    lines (line ++ rest) = line :: lines rest := by
  rcases hLine with ⟨front, rfl, hFront⟩
  rw [lines, List.append_assoc, linesFrom_append [] hFront,
    List.singleton_append, linesFrom, if_pos (by decide),
    linesFrom_eq]
  simp [lines]

/- What has no line feed is one line, unless it is empty. -/
theorem lines_of_lf_not_mem
    {data : Bytes}
    (hNone : lf ∉ data)
    (hSome : data ≠ []) :
    lines data = [data] := by
  have hWhole := linesFrom_append [] hNone []
  rw [List.append_nil, List.append_nil] at hWhole
  rw [lines, hWhole, linesFrom, if_neg (by simpa using hSome)]
  simp

/- Lines in front are the first ones. -/
theorem lines_flatten_append
    {front : List Bytes}
    (hFront : ∀ line ∈ front, IsLine line)
    (rest : Bytes) :
    lines (front.flatten ++ rest) = front ++ lines rest := by
  induction front with
  | nil => rfl
  | cons line front ih =>
      rcases List.forall_mem_cons.mp hFront with
        ⟨hLine, hLater⟩
      rw [List.flatten_cons, List.append_assoc,
        lines_cons hLine, ih hLater]
      rfl

/- The line that is split off is the first one. -/
theorem lines_eq_splitLine
    {data : Bytes}
    (hSome : data ≠ []) :
    lines data =
      (splitLine data).1 :: lines (splitLine data).2 := by
  by_cases hMem : lf ∈ data
  · rcases List.eq_append_cons_of_mem hMem with
      ⟨front, rest, rfl, hFront⟩
    have hLines := lines_cons ⟨front, rfl, hFront⟩ rest
    rw [List.append_assoc, List.singleton_append] at hLines
    rw [splitLine_append_lf hFront, hLines]
  · rw [splitLine_of_lf_not_mem hMem,
      lines_of_lf_not_mem hMem hSome]
    rfl

/- It is among the lines up to any one. -/
theorem fst_splitLine_mem
    {data last : Bytes}
    {front back : List Bytes}
    (hLines : lines data = front ++ last :: back) :
    (splitLine data).1 ∈ front ++ [last] := by
  have hSome : data ≠ [] := by
    rintro rfl
    have hLength := congrArg List.length hLines
    simp [lines, linesFrom] at hLength
  rw [lines_eq_splitLine hSome] at hLines
  cases front with
  | nil =>
      rw [(List.cons.inj hLines).1]
      exact List.mem_cons_self
  | cons first front =>
      rw [(List.cons.inj hLines).1]
      exact List.mem_cons_self

/- A line that another one follows ends in a line feed. -/
theorem isLine_of_lines_eq
    {data last : Bytes}
    {front back : List Bytes}
    (hLines : lines data = front ++ last :: back) :
    ∀ line ∈ front, IsLine line := by
  induction data using lineInduction generalizing front with
  | tail data hNone =>
      have hFront : front = [] := by
        by_cases hSome : data = []
        · rw [hSome] at hLines
          exact absurd hLines (by simp [lines, linesFrom])
        · rw [lines_of_lf_not_mem hNone hSome] at hLines
          have hLength := congrArg List.length hLines
          simp only [List.length_append, List.length_cons,
            List.length_nil] at hLength
          exact List.eq_nil_of_length_eq_zero (by omega)
      rw [hFront]
      simp
  | line first rest hFirst ih =>
      rw [lines_cons hFirst] at hLines
      cases front with
      | nil => simp
      | cons line front =>
          rcases List.cons.inj hLines with ⟨rfl, hRest⟩
          exact List.forall_mem_cons.mpr ⟨hFirst, ih hRest⟩

/- Only the last line may have no line feed. -/
theorem isLine_or_of_mem_lines
    {data line : Bytes}
    (hMem : line ∈ lines data) :
    IsLine line ∨ lf ∉ line := by
  induction data using lineInduction with
  | tail data hNone =>
      by_cases hSome : data = []
      · rw [hSome] at hMem
        cases hMem
      · rw [lines_of_lf_not_mem hNone hSome,
          List.mem_singleton] at hMem
        exact Or.inr (hMem ▸ hNone)
  | line first rest hFirst ih =>
      rw [lines_cons hFirst] at hMem
      rcases List.mem_cons.mp hMem with rfl | hLater
      · exact Or.inl hFirst
      · exact ih hLater

end Bytes

end MailFilter
