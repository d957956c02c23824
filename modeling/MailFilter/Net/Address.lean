import MailFilter.Text.Decimal

/-
  This file defines internet addresses and their texts.

  An address of four octets is written with dots. An address
  of eight groups is written in lower case hexadecimal, with
  the first of the longest runs of two or more zero groups
  left out. One that maps an address of four octets ends in
  the text of that address.

  Key definitions include:
    * `Net.Address`
    * `Net.Address.read?`
    * `Net.Address.render`
    * `Net.Address.renderSocket`
-/

namespace MailFilter.Net

/- An internet address. -/
inductive Address where
  | v4 (octets : List Nat)
  | v6 (groups : List Nat)
deriving DecidableEq, Repr

namespace Address

/- This machine. -/
def loopback : Address :=
  .v4 [127, 0, 0, 1]

------------------------------------------------------------
-- Reading
------------------------------------------------------------

/- The value of a hexadecimal digit. -/
def hexDigit?
    (c : Char) : Option Nat :=
  let n := c.toNat
  if 48 ≤ n && n ≤ 57 then some (n - 48)
  else if 97 ≤ n && n ≤ 102 then some (n - 87)
  else if 65 ≤ n && n ≤ 70 then some (n - 55)
  else none

/- Read an octet: up to three digits, no leading zero. -/
def readOctet?
    (text : List Char) : Option (Nat × List Char) :=
  let digits := text.takeWhile Char.isDigit
  if digits.length ≤ 3 &&
      !(digits.length > 1 && digits.head? == some '0')
  then
    match Decimal.ofDigits? digits with
    | some n =>
        if n < 256 then some (n, text.drop digits.length)
        else none
    | none => none
  else
    none

/- Read an octet after a dot. -/
def readDotOctet? : List Char → Option (Nat × List Char)
  | '.' :: rest => readOctet? rest
  | _ => none

/- Read four octets with dots between them. -/
def readV4?
    (text : List Char) : Option (List Nat × List Char) := do
  let (a, text) ← readOctet? text
  let (b, text) ← readDotOctet? text
  let (c, text) ← readDotOctet? text
  let (d, text) ← readDotOctet? text
  return ([a, b, c, d], text)

/- Read a group: up to four hexadecimal digits. -/
def readGroup?
    (text : List Char) : Option (Nat × List Char) :=
  let digits := text.takeWhile (hexDigit? · |>.isSome)
  if digits.isEmpty || digits.length > 4 then none
  else
    let value :=
      digits.foldl
        (fun n c => n * 16 + (hexDigit? c).getD 0) 0
    some (value, text.drop digits.length)

/- Pass over the colon between two groups. -/
def skipColon?
    (first : Bool)
    (text : List Char) : Option (List Char) :=
  if first then some text
  else
    match text with
    | ':' :: rest => some rest
    | _ => none

/-
  Read up to `limit` groups, of which the last two may be
  written as four octets. Tells whether they were.
-/
def readGroups
    (first : Bool)
    (text : List Char) :
    Nat → List Nat × Bool × List Char
  | 0 => ([], false, text)
  | limit + 1 =>
      match skipColon? first text with
      | none => ([], false, text)
      | some start =>
          let octets :=
            if limit ≥ 1 then readV4? start else none
          match octets with
          | some ([a, b, c, d], rest) =>
              ([a * 256 + b, c * 256 + d], true, rest)
          | _ =>
              match readGroup? start with
              | none => ([], false, text)
              | some (group, rest) =>
                  let (more, ending, rest) :=
                    readGroups false rest limit
                  (group :: more, ending, rest)

/- Read eight groups, or fewer around a double colon. -/
def readV6?
    (text : List Char) : Option (List Nat × List Char) :=
  let (head, ending, rest) := readGroups true text 8
  if head.length = 8 then some (head, rest)
  else if ending then none
  else
    match rest with
    | ':' :: ':' :: rest =>
        let (tail, _, rest) :=
          readGroups true rest (7 - head.length)
        let zeros :=
          List.replicate (8 - head.length - tail.length) 0
        some (head ++ zeros ++ tail, rest)
    | _ => none

/- Read an address that is the whole text. -/
def read?
    (text : String) : Option Address :=
  match readV4? text.toList with
  | some (octets, []) => some (.v4 octets)
  | some _ => none
  | none =>
      match readV6? text.toList with
      | some (groups, []) => some (.v6 groups)
      | _ => none

------------------------------------------------------------
-- Writing
------------------------------------------------------------

/- Write octets with dots between them. -/
def renderOctets
    (octets : List Nat) : String :=
  ".".intercalate (octets.map toString)

/- Write a group in hexadecimal. -/
def renderGroup
    (group : Nat) : String :=
  String.ofList (Nat.toDigits 16 group)

/- Write groups with colons between them. -/
def renderGroups
    (groups : List Nat) : String :=
  ":".intercalate (groups.map renderGroup)

/-
  The start and length of the first of the longest runs of
  zero groups, given the run under way and the best before.
-/
def longestZeros
    (at_ : Nat)
    (run best : Nat × Nat) : List Nat → Nat × Nat
  | [] => best
  | group :: rest =>
      if group = 0 then
        let run :=
          if run.2 = 0 then (at_, 1) else (run.1, run.2 + 1)
        let best := if run.2 > best.2 then run else best
        longestZeros (at_ + 1) run best rest
      else
        longestZeros (at_ + 1) (0, 0) best rest

/- The text of an address. -/
def render : Address → String
  | .v4 octets => renderOctets octets
  | .v6 groups =>
      match groups with
      | [0, 0, 0, 0, 0, 0xFFFF, a, b] =>
          "::ffff:" ++
            renderOctets
              [a / 256, a % 256, b / 256, b % 256]
      | _ =>
          let (start, size) :=
            longestZeros 0 (0, 0) (0, 0) groups
          if size > 1 then
            renderGroups (groups.take start) ++ "::" ++
              renderGroups (groups.drop (start + size))
          else
            renderGroups groups

/- The text of an address with a port. -/
def renderSocket
    (address : Address)
    (port : Nat) : String :=
  match address with
  | .v4 _ => address.render ++ ":" ++ toString port
  | .v6 _ => "[" ++ address.render ++ "]:" ++ toString port

end Address

end MailFilter.Net
