import MailFilter.Text.Blank

/-
  This file defines how the addresses in a header value are
  read.

  A value lists addresses with commas between them. An
  address stands alone, or in angle brackets after a name. A
  group is a name, a colon, addresses and a semicolon. If
  anything in the value is out of place, it has no addresses
  at all.

  Key definitions include:
    * `Addresses.State`
    * `Addresses.readFrom?`
    * `Addresses.read`
-/

namespace MailFilter.Addresses

open Text (isBlank trimEnd)

------------------------------------------------------------
-- States
------------------------------------------------------------

/-
  Where reading stands. The characters of an address under
  way are given in reverse.
-/
inductive State where
  /- Before an address. -/
  | start
  /- Right after the colon that opens a group. -/
  | opened
  /- In a quoted name. -/
  | quoted
  /- After a backslash in a quoted name. -/
  | escaped
  /- After a quoted name. -/
  | named
  /- In an address within angle brackets. -/
  | bracketed (address : List Char)
  /- After such an address. -/
  | closed
  /- In an address or a name without quotes. -/
  | plain (text : List Char)
  /- In a comment after an address in brackets. -/
  | commentClosed
  /- In a comment after a text without quotes. -/
  | commentPlain (text : List Char)
deriving DecidableEq, Repr

/-
  Add an address to those found, given its characters in
  reverse. It has to have an at sign.
-/
def add?
    (found : List String)
    (address : List Char) : Option (List String) :=
  if address.contains '@' then
    some (String.ofList address.reverse :: found)
  else
    none

/-
  Add an address without brackets, of which blank characters
  at the end are no part.
-/
def addPlain?
    (found : List String)
    (text : List Char) : Option (List String) :=
  add? found (text.dropWhile isBlank)

------------------------------------------------------------
-- Reading
------------------------------------------------------------

/- What one character before an address leads to. -/
def start?
    (grouped : Bool)
    (c : Char) : Option (Bool × State) :=
  if isBlank c then some (grouped, .start)
  else if c == '"' then some (grouped, .quoted)
  else if c == '<' then some (grouped, .bracketed [])
  else if c == ';' then
    if grouped then some (false, .start) else none
  else some (grouped, .plain [c])

/-
  Read addresses from a state on. The addresses found before
  are given in reverse. The flag tells that a group is open.
-/
def readFrom?
    (found : List String)
    (grouped : Bool) :
    State → List Char → Option (List String)
  | .start, [] => if grouped then none else some found.reverse
  | .opened, [] => some found.reverse
  | .closed, [] => if grouped then none else some found.reverse
  | .plain text, [] =>
      if grouped then none
      else (addPlain? found text).map List.reverse
  | _, [] => none
  | .start, c :: rest =>
      match start? grouped c with
      | some (grouped, next) => readFrom? found grouped next rest
      | none => none
  | .opened, c :: rest =>
      match start? grouped c with
      | some (grouped, next) => readFrom? found grouped next rest
      | none => none
  | .quoted, c :: rest =>
      if c == '\\' then readFrom? found grouped .escaped rest
      else if c == '"' then readFrom? found grouped .named rest
      else readFrom? found grouped .quoted rest
  | .escaped, _ :: rest => readFrom? found grouped .quoted rest
  | .named, c :: rest =>
      if c == '<' then
        readFrom? found grouped (.bracketed []) rest
      else if c == ':' then
        if grouped then none else readFrom? found true .opened rest
      else if c == '"' then readFrom? found grouped .quoted rest
      else readFrom? found grouped .named rest
  | .bracketed address, c :: rest =>
      if c == '>' then
        match add? found address with
        | some found => readFrom? found grouped .closed rest
        | none => none
      else
        readFrom? found grouped (.bracketed (c :: address)) rest
  | .closed, c :: rest =>
      if isBlank c then readFrom? found grouped .closed rest
      else if c == ',' then readFrom? found grouped .start rest
      else if c == ';' then readFrom? found false .start rest
      else if c == '(' then
        readFrom? found grouped .commentClosed rest
      else none
  | .plain text, c :: rest =>
      if c == '<' then
        readFrom? found grouped (.bracketed []) rest
      else if c == ',' then
        match addPlain? found text with
        | some found => readFrom? found grouped .start rest
        | none => none
      else if c == ';' then
        match addPlain? found text with
        | some found => readFrom? found false .start rest
        | none => none
      else if c == ':' then
        if grouped then none else readFrom? found true .opened rest
      else if c == '(' then
        readFrom? found grouped (.commentPlain text) rest
      else
        readFrom? found grouped (.plain (c :: text)) rest
  | .commentClosed, c :: rest =>
      if c == ')' then readFrom? found grouped .closed rest
      else readFrom? found grouped .commentClosed rest
  | .commentPlain text, c :: rest =>
      if c == ')' then readFrom? found grouped (.plain text) rest
      else readFrom? found grouped (.commentPlain text) rest

/- The addresses in a header value. -/
def read
    (value : String) : List String :=
  (readFrom? [] false .start value.toList).getD []

end MailFilter.Addresses
