/-
  This file defines the blank characters and what depends on
  them: trimming, and the first word of a text.

  The blank characters are those with the Unicode property
  White_Space.

  Key definitions include:
    * `Text.isBlank`
    * `Text.trim`
    * `Text.firstWord`
-/

namespace MailFilter.Text

------------------------------------------------------------
-- Blank characters
------------------------------------------------------------

/- The character has the property White_Space. -/
def isBlank
    (c : Char) : Bool :=
  let n := c.toNat
  (9 ≤ n && n ≤ 13) || n == 0x20 || n == 0x85 || n == 0xA0 ||
    n == 0x1680 || (0x2000 ≤ n && n ≤ 0x200A) ||
    n == 0x2028 || n == 0x2029 || n == 0x202F ||
    n == 0x205F || n == 0x3000

------------------------------------------------------------
-- Trimming
------------------------------------------------------------

/- Drop blank characters at the start. -/
def trimStart
    (text : List Char) : List Char :=
  text.dropWhile isBlank

/- Drop blank characters at the end. -/
def trimEnd
    (text : List Char) : List Char :=
  (text.reverse.dropWhile isBlank).reverse

/- Drop blank characters at both ends. -/
def trimChars
    (text : List Char) : List Char :=
  trimEnd (trimStart text)

/- Drop blank characters at both ends of a string. -/
def trim
    (text : String) : String :=
  String.ofList (trimChars text.toList)

@[simp]
theorem toList_trim
    (text : String) :
    (trim text).toList = trimChars text.toList := by
  simp [trim]

/-
  A text without blank characters at its ends is left as it
  is.
-/
theorem trimChars_eq_self
    {text : List Char}
    (hFirst : ∀ c, text.head? = some c → isBlank c = false)
    (hLast :
      ∀ c, text.getLast? = some c → isBlank c = false) :
    trimChars text = text := by
  have hStart : trimStart text = text := by
    cases text with
    | nil => rfl
    | cons c rest => simp [trimStart, hFirst c rfl]
  unfold trimChars
  rw [hStart]
  unfold trimEnd
  cases hBack : text.reverse with
  | nil => simpa using congrArg List.reverse hBack
  | cons c rest =>
      have hEnd : text.getLast? = some c := by
        rw [List.getLast?_eq_head?_reverse, hBack]
        rfl
      rw [List.dropWhile_cons_of_neg (by simp [hLast c hEnd]),
        ← hBack, List.reverse_reverse]

------------------------------------------------------------
-- Words
------------------------------------------------------------

/- The characters up to the first blank after any blanks. -/
def firstWord
    (text : List Char) : List Char :=
  (trimStart text).takeWhile (!isBlank ·)

end MailFilter.Text
