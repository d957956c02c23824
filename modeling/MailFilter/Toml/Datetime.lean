import MailFilter.Text.Decimal

/-
  This file defines how the dates and times of TOML are read,
  and the one text that each of them has.

  Key definitions include:
    * `Toml.Datetime.read?`
-/

namespace MailFilter.Toml.Datetime

------------------------------------------------------------
-- Parts
------------------------------------------------------------

/- Read a number of exactly `width` digits. -/
def number?
    (width : Nat)
    (text : List Char) : Option (Nat × List Char) :=
  let digits := text.take width
  if digits.length = width then do
    let n ← Decimal.ofDigits? digits
    return (n, text.drop width)
  else
    none

/- Read a number of two digits of at most `bound`. -/
def two?
    (bound : Nat)
    (text : List Char) : Option (Nat × List Char) := do
  let (n, rest) ← number? 2 text
  if n ≤ bound then some (n, rest) else none

/- Pass over one character. -/
def skip?
    (c : Char) : List Char → Option (List Char)
  | d :: rest => if c == d then some rest else none
  | [] => none

/- Write a number with leading zeros. -/
def padded
    (width n : Nat) : String :=
  let digits := toString n
  String.ofList (List.replicate (width - digits.length) '0') ++
    digits

/- The year has a 29th of February. -/
def isLeap
    (year : Nat) : Bool :=
  (year % 4 == 0 && year % 100 != 0) || year % 400 == 0

/- How many days a month has. -/
def daysIn
    (year month : Nat) : Nat :=
  match month with
  | 2 => if isLeap year then 29 else 28
  | 4 | 6 | 9 | 11 => 30
  | _ => 31

------------------------------------------------------------
-- Dates and times
------------------------------------------------------------

/- Read a date. -/
def date?
    (text : List Char) : Option (String × List Char) := do
  let (year, rest) ← number? 4 text
  let rest ← skip? '-' rest
  let (month, rest) ← two? 12 rest
  let rest ← skip? '-' rest
  let (day, rest) ← number? 2 rest
  if 1 ≤ month && 1 ≤ day && day ≤ daysIn year month then
    return (padded 4 year ++ "-" ++ padded 2 month ++ "-" ++
      padded 2 day, rest)
  else
    none

/-
  The text of a fraction of a second: nine digits at most,
  without zeros at the end.
-/
def renderFraction
    (digits : List Char) : String :=
  let kept :=
    ((digits.take 9).reverse.dropWhile (· == '0')).reverse
  if kept.isEmpty then "" else "." ++ String.ofList kept

/- Read a fraction of a second, if there is one. -/
def fraction
    (text : List Char) : String × List Char :=
  match text with
  | '.' :: rest =>
      let digits := rest.takeWhile Char.isDigit
      if digits.isEmpty then ("", text)
      else (renderFraction digits, rest.drop digits.length)
  | _ => ("", text)

/- Read a time of day. -/
def time?
    (text : List Char) : Option (String × List Char) := do
  let (hour, rest) ← two? 23 text
  let rest ← skip? ':' rest
  let (minute, rest) ← two? 59 rest
  let rest ← skip? ':' rest
  let (second, rest) ← two? 60 rest
  let (part, rest) := fraction rest
  return (padded 2 hour ++ ":" ++ padded 2 minute ++ ":" ++
    padded 2 second ++ part, rest)

/- Read the distance from universal time, if there is one. -/
def offset
    (text : List Char) : Option (String × List Char) :=
  match text with
  | 'Z' :: rest | 'z' :: rest => some ("Z", rest)
  | c :: rest =>
      if c == '+' || c == '-' then do
        let (hour, rest) ← two? 23 rest
        let rest ← skip? ':' rest
        let (minute, rest) ← two? 59 rest
        let sign :=
          if c == '-' && hour * 60 + minute != 0 then "-"
          else "+"
        return (sign ++ padded 2 hour ++ ":" ++
          padded 2 minute, rest)
      else
        some ("", text)
  | [] => some ("", [])

/- Read what follows a date: a time, if there is one. -/
def timeAfterDate
    (text : List Char) : Option (String × List Char) :=
  match text with
  | c :: rest =>
      if c == 'T' || c == 't' || c == ' ' then
        match time? rest with
        | some (time, rest) => do
            let (zone, rest) ← offset rest
            return ("T" ++ time ++ zone, rest)
        | none => some ("", text)
      else
        some ("", text)
  | [] => some ("", [])

/- Read a date, a time, or both. -/
def read?
    (text : List Char) : Option (String × List Char) :=
  match date? text with
  | some (date, rest) => do
      let (time, rest) ← timeAfterDate rest
      return (date ++ time, rest)
  | none => time? text

end MailFilter.Toml.Datetime
