import MailFilter.Toml.Value
import MailFilter.Toml.Quoted
import MailFilter.Toml.Number
import MailFilter.Toml.Datetime

/-
  This file defines how a TOML document is read.

  A document is a sequence of statements: headers and
  assignments. Reading gives the entries of its root table,
  or nothing if the text is no document.

  Key definitions include:
    * `Toml.key?`
    * `Toml.value?`
    * `Toml.Statement`
    * `Toml.statement?`
    * `Toml.parse?`
-/

namespace MailFilter.Toml

open Quoted (isText isSpaceOrTab)

/- Values and keys nest less deeply than this. -/
def nestingLimit : Nat :=
  80

------------------------------------------------------------
-- Space between tokens
------------------------------------------------------------

/- Pass over spaces and tabs. -/
def skipSpace
    (text : List Char) : List Char :=
  text.dropWhile isSpaceOrTab

/- Pass over a comment, if there is one. -/
def skipComment
    (text : List Char) : List Char :=
  match text with
  | '#' :: rest => rest.dropWhile isText
  | _ => text

/- Pass over a line ending or arrive at the end. -/
def lineEnd? : List Char → Option (List Char)
  | [] => some []
  | '\n' :: rest => some rest
  | '\r' :: '\n' :: rest => some rest
  | _ => none

/- Pass over what may follow a statement on its line. -/
def restOfLine?
    (text : List Char) : Option (List Char) :=
  lineEnd? (skipComment (skipSpace text))

/-
  Pass over spaces, comments and line endings. The flag tells
  that the pass is within a comment.
-/
def skipLines?
    (comment : Bool) : List Char → Option (List Char)
  | '\n' :: rest => skipLines? false rest
  | '\r' :: '\n' :: rest => skipLines? false rest
  | c :: rest =>
      if comment then
        if isText c then skipLines? true rest else none
      else if isSpaceOrTab c then skipLines? false rest
      else if c == '#' then skipLines? true rest
      else some (c :: rest)
  | [] => if comment then none else some []

------------------------------------------------------------
-- Keys
------------------------------------------------------------

/- A character of a key without quotes. -/
def isBare
    (c : Char) : Bool :=
  c.isAlphanum || c == '-' || c == '_'

/- Read one part of a key. -/
def simpleKey?
    (text : List Char) : Option (String × List Char) :=
  match text with
  | '"' :: rest => Quoted.basic? rest
  | '\'' :: rest => Quoted.literal? rest
  | _ =>
      let bare := text.takeWhile isBare
      if bare.isEmpty then none
      else some (String.ofList bare, text.drop bare.length)

/- Read the parts of a key, of which there are at most `n`. -/
def keyParts?
    (found : List String) :
    Nat → List Char → Option (List String × List Char)
  | 0, _ => none
  | n + 1, text => do
      let (part, rest) ← simpleKey? (skipSpace text)
      match skipSpace rest with
      | '.' :: rest => keyParts? (part :: found) n rest
      | rest => return (part :: found, rest)

/-
  Read a key. Gives the path of tables it passes, and its
  last part.
-/
def key?
    (text : List Char) :
    Option (List String × String × List Char) :=
  match keyParts? [] (nestingLimit - 1) text with
  | some (last :: path, rest) => some (path.reverse, last, rest)
  | _ => none

------------------------------------------------------------
-- Values
------------------------------------------------------------

/- Read a string value. -/
def string?
    (text : List Char) : Option (String × List Char) :=
  match text with
  | '"' :: '"' :: '"' :: rest => Quoted.longBasic? rest
  | '"' :: rest => Quoted.basic? rest
  | '\'' :: '\'' :: '\'' :: rest => Quoted.longLiteral? rest
  | '\'' :: rest => Quoted.literal? rest
  | _ => none

/- Read a number, a date or a time. -/
def number?
    (text : List Char) : Option (Value × List Char) :=
  match Datetime.read? text with
  | some (time, rest) => some (.datetime time, rest)
  | none =>
      match Number.float? text with
      | some rest => some (.float, rest)
      | none =>
          match Number.integer? text with
          | some (n, rest) => some (.integer n, rest)
          | none => none

/- Read a value that holds no other values. -/
def scalar?
    (text : List Char) : Option (Value × List Char) :=
  match text with
  | 't' :: 'r' :: 'u' :: 'e' :: rest =>
      some (.boolean true, rest)
  | 'f' :: 'a' :: 'l' :: 's' :: 'e' :: rest =>
      some (.boolean false, rest)
  | '"' :: _ | '\'' :: _ => do
      let (s, rest) ← string? text
      return (.string s, rest)
  | _ => number? text

mutual

/- Read a value, with a bound on the steps and the depth. -/
def valueWithin?
    (depth : Nat) :
    Nat → List Char → Option (Value × List Char)
  | 0, _ => none
  | steps + 1, '[' :: rest =>
      if depth + 1 < nestingLimit then
        itemsWithin? (depth + 1) [] steps rest
      else
        none
  | steps + 1, '{' :: rest =>
      if depth + 1 < nestingLimit then
        match skipSpace rest with
        | '}' :: rest => some (.table .braces [], rest)
        | rest => pairsWithin? (depth + 1) [] steps rest
      else
        none
  | _ + 1, text => scalar? text

/- Read the items of an array, up to its closing bracket. -/
def itemsWithin?
    (depth : Nat)
    (found : List Value) :
    Nat → List Char → Option (Value × List Char)
  | 0, _ => none
  | steps + 1, text => do
      let text ← skipLines? false text
      match text with
      | ']' :: rest => return (.array found.reverse, rest)
      | _ =>
          let (item, rest) ← valueWithin? depth steps text
          let rest ← skipLines? false rest
          match rest with
          | ',' :: rest =>
              itemsWithin? depth (item :: found) steps rest
          | ']' :: rest =>
              return (.array (item :: found).reverse, rest)
          | _ => none

/- Read the pairs of a table, up to its closing brace. -/
def pairsWithin?
    (depth : Nat)
    (found : Entries) :
    Nat → List Char → Option (Value × List Char)
  | 0, _ => none
  | steps + 1, text => do
      let (path, last, rest) ← key? text
      match rest with
      | '=' :: rest =>
          let (value, rest) ←
            valueWithin? depth steps (skipSpace rest)
          let found ← found.assign? last value path
          match skipSpace rest with
          | ',' :: rest => pairsWithin? depth found steps rest
          | '}' :: rest => return (.table .braces found, rest)
          | _ => none
      | _ => none

end

/- Read a value. Each character is met in two steps at most. -/
def value?
    (text : List Char) : Option (Value × List Char) :=
  valueWithin? 0 (2 * text.length + 2) text

------------------------------------------------------------
-- Statements
------------------------------------------------------------

/- A header or an assignment. -/
inductive Statement where
  | table (path : List String) (last : String)
  | tables (path : List String) (last : String)
  | assign (path : List String) (last : String) (value : Value)

/- Read a statement with the rest of its line. -/
def statement?
    (text : List Char) : Option (Statement × List Char) := do
  match text with
  | '[' :: '[' :: rest =>
      let (path, last, rest) ← key? rest
      match rest with
      | ']' :: ']' :: rest =>
          return (.tables path last, ← restOfLine? rest)
      | _ => none
  | '[' :: rest =>
      let (path, last, rest) ← key? rest
      match rest with
      | ']' :: rest =>
          return (.table path last, ← restOfLine? rest)
      | _ => none
  | _ =>
      let (path, last, rest) ← key? text
      match rest with
      | '=' :: rest =>
          let (value, rest) ← value? (skipSpace rest)
          return (.assign path last value, ← restOfLine? rest)
      | _ => none

/-
  Carry out a statement on the root table. The path is that
  of the table opened last.
-/
def Statement.run?
    (current : List String)
    (root : Entries) :
    Statement → Option (List String × Entries)
  | .table path last => do
      return (path ++ [last], ← root.openTable? path last)
  | .tables path last => do
      return (path ++ [last], ← root.appendTable? path last)
  | .assign path last value => do
      let root ←
        root.within? (Entries.assign? last value path) current
      return (current, root)

/-
  Read statements up to the end, with a bound on their
  number.
-/
def statementsWithin?
    (current : List String)
    (root : Entries) : Nat → List Char → Option Entries
  | 0, _ => none
  | steps + 1, text => do
      let text := skipSpace text
      match text with
      | [] => return root
      | c :: _ =>
          if c == '#' || c == '\n' || c == '\r' then
            let rest ← lineEnd? (skipComment text)
            statementsWithin? current root steps rest
          else
            let (statement, rest) ← statement? text
            let (current, root) ← statement.run? current root
            statementsWithin? current root steps rest

/- Drop a byte order mark at the start. -/
def dropMark : List Char → List Char
  | '\uFEFF' :: rest => rest
  | text => text

/- Read a document. Every statement has a character. -/
def parse?
    (text : String) : Option Entries :=
  let text := dropMark text.toList
  statementsWithin? [] [] (text.length + 1) text

end MailFilter.Toml
