import MailFilter.Text.Blank

/-
  This file defines texts that fit into one line of a header
  as they are: they have no line feed, and no blanks at their
  ends.

  Key definitions include:
    * `Text.IsOneLine`
    * `Text.IsTrimmed`
-/

namespace MailFilter.Text

------------------------------------------------------------
-- One line
------------------------------------------------------------

/- The text has no line feed. -/
def IsOneLine
    (text : String) : Prop :=
  '\n' ∉ text.toList

instance
    (text : String) :
    Decidable (IsOneLine text) := by
  unfold IsOneLine
  infer_instance

@[simp]
theorem isOneLine_append
    (front back : String) :
    IsOneLine (front ++ back) ↔
      IsOneLine front ∧ IsOneLine back := by
  simp [IsOneLine]

/- A text from a list is on one line if all of the list is. -/
theorem isOneLine_getD
    (texts : List String)
    (hTexts : ∀ text ∈ texts, IsOneLine text)
    (place : Nat) :
    IsOneLine (texts.getD place "") := by
  rw [List.getD_eq_getElem?_getD]
  cases hText : texts[place]? with
  | none => decide
  | some text => exact hTexts text (List.mem_of_getElem? hText)

------------------------------------------------------------
-- Trimmed texts
------------------------------------------------------------

/- The text neither starts nor ends with a blank. -/
structure IsTrimmed
    (text : String) : Prop where
  first :
    ∀ c, text.toList.head? = some c → isBlank c = false
  last :
    ∀ c, text.toList.getLast? = some c → isBlank c = false

theorem isTrimmed_iff
    {text : String} :
    IsTrimmed text ↔
      text.toList.head?.all (!isBlank ·) = true ∧
        text.toList.getLast?.all (!isBlank ·) = true := by
  simp only [Option.all_eq_true, Bool.not_eq_true']
  exact ⟨fun hTrimmed => ⟨hTrimmed.first, hTrimmed.last⟩,
    fun hEnds => ⟨hEnds.1, hEnds.2⟩⟩

instance
    (text : String) :
    Decidable (IsTrimmed text) :=
  decidable_of_iff _ isTrimmed_iff.symm

/- A text that is trimmed is left as it is. -/
theorem IsTrimmed.trimChars_eq
    {text : String}
    (hTrimmed : IsTrimmed text) :
    trimChars text.toList = text.toList :=
  trimChars_eq_self hTrimmed.first hTrimmed.last

/- What is appended to a text decides on its end. -/
theorem IsTrimmed.append
    {front back : String}
    (hFront : IsTrimmed front)
    (hBack : IsTrimmed back) :
    IsTrimmed (front ++ back) := by
  constructor
  · intro c hFirst
    rw [String.toList_append, List.head?_append] at hFirst
    cases hHead : front.toList.head? with
    | none =>
        rw [hHead] at hFirst
        exact hBack.first c hFirst
    | some d =>
        rw [hHead] at hFirst
        cases hFirst
        exact hFront.first c hHead
  · intro c hLast
    rw [String.toList_append, List.getLast?_append] at hLast
    cases hEnd : back.toList.getLast? with
    | none =>
        rw [hEnd] at hLast
        exact hFront.last c hLast
    | some d =>
        rw [hEnd] at hLast
        cases hLast
        exact hBack.last c hEnd

------------------------------------------------------------
-- Numbers
------------------------------------------------------------

/- Numbers are written in digits. -/
theorem isDigit_of_mem_toString
    {number : Nat}
    {c : Char}
    (hMem : c ∈ (toString number).toList) :
    c.isDigit = true := by
  have hDigits :
      (toString number).toList = Nat.toDigits 10 number := by
    simp
  rw [hDigits] at hMem
  exact Nat.isDigit_of_mem_toDigits (by decide) (by decide) hMem

/- Digits stand on one line. -/
theorem isOneLine_toString
    (number : Nat) :
    IsOneLine (toString number) := by
  intro hMem
  exact absurd (isDigit_of_mem_toString hMem) (by decide)

theorem isBlank_of_isDigit
    {c : Char}
    (hDigit : c.isDigit = true) :
    isBlank c = false := by
  simp only [Char.isDigit, Bool.and_eq_true, decide_eq_true_eq,
    ge_iff_le, UInt32.le_iff_toNat_le] at hDigit
  simp only [isBlank, Bool.or_eq_false_iff,
    Bool.and_eq_false_iff, decide_eq_false_iff_not,
    beq_eq_false_iff_ne, Char.toNat]
  have hLow : 48 ≤ c.val.toNat := hDigit.1
  have hHigh : c.val.toNat ≤ 57 := hDigit.2
  omega

/- No digit is blank. -/
theorem isTrimmed_toString
    (number : Nat) :
    IsTrimmed (toString number) where
  first := fun _ hFirst =>
    isBlank_of_isDigit
      (isDigit_of_mem_toString (List.mem_of_head? hFirst))
  last := fun _ hLast =>
    isBlank_of_isDigit
      (isDigit_of_mem_toString (List.mem_of_getLast? hLast))

end MailFilter.Text
