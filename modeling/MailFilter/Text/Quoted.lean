/-
  This file defines how a text is shown between quotes, with
  escapes for quotes, backslashes and characters that do not
  print by themselves.

  Key definitions include:
    * `Text.printsAlone`
    * `Text.quote`
-/

namespace MailFilter.Text

/-
  Ranges of characters that do not print by themselves:
  controls, formats, marks that combine with the character
  before them, and what is private or no character at all.
-/
def silentRanges : List (Nat × Nat) :=
  [(0x00, 0x1F), (0x7F, 0x9F), (0xAD, 0xAD), (0x300, 0x36F),
   (0x483, 0x489), (0x591, 0x5BD), (0x610, 0x61C),
   (0x64B, 0x65F), (0x1AB0, 0x1ACE), (0x1DC0, 0x1DFF),
   (0x200B, 0x200F), (0x2028, 0x202E), (0x2060, 0x206F),
   (0x20D0, 0x20F0), (0x302A, 0x302F), (0x3099, 0x309A),
   (0xE000, 0xF8FF), (0xFE00, 0xFE0F), (0xFE20, 0xFE2F),
   (0xFEFF, 0xFEFF), (0xFFF0, 0xFFFB), (0xFFFE, 0xFFFF),
   (0xE0000, 0x10FFFF)]

/- The character prints by itself. -/
def printsAlone
    (c : Char) : Bool :=
  silentRanges.all fun (low, high) =>
    c.toNat < low || high < c.toNat

/- The code of a character in braces. -/
def codeEscape
    (c : Char) : String :=
  "\\u\x7b" ++ String.ofList (Nat.toDigits 16 c.toNat) ++
    "\x7d"

/- How a character is shown between double quotes. -/
def quoteChar
    (c : Char) : String :=
  match c with
  | '"' => "\\\""
  | '\\' => "\\\\"
  | '\t' => "\\t"
  | '\n' => "\\n"
  | '\r' => "\\r"
  | '\x00' => "\\0"
  | c => if printsAlone c then c.toString else codeEscape c

/- A text between double quotes. -/
def quote
    (text : String) : String :=
  "\"" ++ String.join (text.toList.map quoteChar) ++ "\""

end MailFilter.Text
