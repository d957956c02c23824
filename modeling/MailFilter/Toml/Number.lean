import MailFilter.Net.Address

/-
  This file defines how the numbers of TOML are read.

  Digits may be grouped by single underscores. An integer
  has to fit 64 bits with a sign, and a floating point number
  must not overflow upwards.

  Key definitions include:
    * `Toml.Number.integer?`
    * `Toml.Number.float?`
-/

namespace MailFilter.Toml.Number

open Net.Address (hexDigit?)

------------------------------------------------------------
-- Digits
------------------------------------------------------------

/- The value of a digit in a base of at most sixteen. -/
def digit?
    (base : Nat)
    (c : Char) : Option Nat :=
  match hexDigit? c with
  | some d => if d < base then some d else none
  | none => none

/-
  Read digits after a digit. An underscore may stand between
  two digits. Gives the digits as numbers.
-/
def moreDigits
    (base : Nat)
    (found : List Nat) : List Char → List Nat × List Char
  | '_' :: c :: rest =>
      match digit? base c with
      | some d => moreDigits base (d :: found) rest
      | none => (found.reverse, '_' :: c :: rest)
  | c :: rest =>
      match digit? base c with
      | some d => moreDigits base (d :: found) rest
      | none => (found.reverse, c :: rest)
  | [] => (found.reverse, [])

/- Read one or more digits. -/
def digits?
    (base : Nat) : List Char → Option (List Nat × List Char)
  | c :: rest =>
      match digit? base c with
      | some d => some (moreDigits base [d] rest)
      | none => none
  | [] => none

/- The number that digits stand for. -/
def ofDigits
    (base : Nat)
    (digits : List Nat) : Nat :=
  digits.foldl (fun n d => n * base + d) 0

/- Read an optional sign. Tells whether it was a minus. -/
def sign : List Char → Bool × List Char
  | '-' :: rest => (true, rest)
  | '+' :: rest => (false, rest)
  | text => (false, text)

/- Read decimal digits without a leading zero. -/
def plainDigits? : List Char → Option (List Nat × List Char)
  | '0' :: rest => some ([0], rest)
  | text => digits? 10 text

------------------------------------------------------------
-- Integers
------------------------------------------------------------

/- The first number that is too large for an integer. -/
def limit : Nat :=
  Nat.pow 2 63

/- The number, if it fits 64 bits with a sign. -/
def fit?
    (n : Int) : Option Int :=
  if -(limit : Int) ≤ n && n < limit then some n else none

/- Read an integer in one of four bases. -/
def integer?
    (text : List Char) : Option (Int × List Char) := do
  match text with
  | '0' :: 'x' :: rest =>
      let (ds, rest) ← digits? 16 rest
      return (← fit? (ofDigits 16 ds), rest)
  | '0' :: 'o' :: rest =>
      let (ds, rest) ← digits? 8 rest
      return (← fit? (ofDigits 8 ds), rest)
  | '0' :: 'b' :: rest =>
      let (ds, rest) ← digits? 2 rest
      return (← fit? (ofDigits 2 ds), rest)
  | _ =>
      let (minus, rest) := sign text
      let (ds, rest) ← plainDigits? rest
      let n : Int := ofDigits 10 ds
      return (← fit? (if minus then -n else n), rest)

------------------------------------------------------------
-- Floating point numbers
------------------------------------------------------------

/-
  The number `m * 10 ^ e` is too large for 64 bits. The bound
  lies half a unit above the largest number that fits.
-/
def overflows
    (m : Nat)
    (e : Int) : Bool :=
  let size := (toString m).length + e
  if m = 0 then false
  else if size > 400 then true
  else if size < 300 then false
  else
    let bound := Nat.pow 2 1024 - Nat.pow 2 970
    bound * Nat.pow 10 (-e).toNat ≤ m * Nat.pow 10 e.toNat

/- Read a fraction after its point, if there is one. -/
def fraction? : List Char → Option (List Nat × List Char)
  | '.' :: rest => digits? 10 rest
  | _ => none

/- Read an exponent after its letter, if there is one. -/
def exponent?
    (text : List Char) : Option (Int × List Char) := do
  match text with
  | c :: rest =>
      if c == 'e' || c == 'E' then
        let (minus, rest) := sign rest
        let (ds, rest) ← digits? 10 rest
        let n : Int := ofDigits 10 ds
        return (if minus then -n else n, rest)
      else none
  | [] => none

/- Read one of the names of numbers that are not finite. -/
def special?
    (text : List Char) : Option (List Char) :=
  match (sign text).2 with
  | 'i' :: 'n' :: 'f' :: rest => some rest
  | 'n' :: 'a' :: 'n' :: rest => some rest
  | _ => none

/- Pass over a floating point number. -/
def float?
    (text : List Char) : Option (List Char) :=
  match special? text with
  | some rest => some rest
  | none => do
      let (minus, rest) := sign text
      let (whole, rest) ← plainDigits? rest
      let finite (m : Nat) (e : Int) : Option Unit :=
        if !minus && overflows m e then none else some ()
      match exponent? rest, fraction? rest with
      | some (e, rest), _ =>
          finite (ofDigits 10 whole) e
          return rest
      | none, some (part, rest) =>
          let (e, rest) := (exponent? rest).getD (0, rest)
          finite (ofDigits 10 (whole ++ part))
            (e - part.length)
          return rest
      | none, none => none

end MailFilter.Toml.Number
