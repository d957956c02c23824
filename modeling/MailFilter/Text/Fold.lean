/-
  This file defines comparison of texts up to the case of
  ASCII letters.

  Key definitions include:
    * `Text.lower`
    * `Text.sameName`
    * `Text.dropPrefix?`
    * `Text.dropThrough?`
-/

namespace MailFilter.Text

------------------------------------------------------------
-- Case
------------------------------------------------------------

/- Map the letters `A` to `Z` to lower case. -/
def lower
    (text : String) : String :=
  String.ofList (text.toList.map Char.toLower)

@[simp]
theorem toList_lower
    (text : String) :
    (lower text).toList = text.toList.map Char.toLower := by
  simp [lower]

/- The names are equal up to the case of ASCII letters. -/
def sameName
    (a b : String) : Bool :=
  lower a == lower b

theorem sameName_refl
    (a : String) :
    sameName a a := by
  simp [sameName]

theorem sameName_comm
    (a b : String) :
    sameName a b = sameName b a := by
  simp only [sameName]
  rw [Bool.beq_comm]

theorem sameName_iff
    {a b : String} :
    sameName a b ↔ lower a = lower b := by
  simp [sameName]

------------------------------------------------------------
-- Prefixes
------------------------------------------------------------

/-
  The text after `word`, if the text starts with it up to
  the case of ASCII letters.
-/
def dropPrefix? : List Char → List Char → Option (List Char)
  | [], rest => some rest
  | w :: word, c :: rest =>
      if w.toLower == c.toLower then dropPrefix? word rest
      else none
  | _ :: _, [] => none

/-
  The text after the first occurrence of `word`, compared up
  to the case of ASCII letters.
-/
def dropThrough?
    (word : List Char) : List Char → Option (List Char)
  | [] => dropPrefix? word []
  | c :: rest =>
      match dropPrefix? word (c :: rest) with
      | some after => some after
      | none => dropThrough? word rest

end MailFilter.Text
