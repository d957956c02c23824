/-
  This file defines how unsigned decimal numbers are read.

  A number is one or more digits, with at most one plus sign
  before them. Leading zeros are allowed.

  Key definitions include:
    * `Decimal.ofDigits?`
    * `Decimal.read?`
    * `Decimal.readWord?`
-/

namespace MailFilter.Decimal

/- The value of a digit. -/
def digit?
    (c : Char) : Option Nat :=
  if c.isDigit then some (c.toNat - 48) else none

/- Read digits after a number read so far. -/
def ofDigitsFrom?
    (value : Nat) : List Char → Option Nat
  | [] => some value
  | c :: rest =>
      match digit? c with
      | some d => ofDigitsFrom? (value * 10 + d) rest
      | none => none

/- Read one or more digits. -/
def ofDigits? : List Char → Option Nat
  | [] => none
  | digits => ofDigitsFrom? 0 digits

/- Read digits after an optional plus sign. -/
def read? : List Char → Option Nat
  | '+' :: digits => ofDigits? digits
  | digits => ofDigits? digits

/- Read a number of so many bits. -/
def readWord?
    (bits : Nat)
    (text : List Char) : Option Nat :=
  match read? text with
  | some n => if n < Nat.pow 2 bits then some n else none
  | none => none

end MailFilter.Decimal
