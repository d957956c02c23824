import MailFilter.Net.Address

/-
  This file defines how the quoted strings of TOML are read.

  Each kind of string is read by one pass over its
  characters. The state of the pass is a `Mode`.

  Key definitions include:
    * `Toml.Quoted.basic?`
    * `Toml.Quoted.literal?`
    * `Toml.Quoted.longBasic?`
    * `Toml.Quoted.longLiteral?`
-/

namespace MailFilter.Toml.Quoted

open Net.Address (hexDigit?)

------------------------------------------------------------
-- Characters
------------------------------------------------------------

/- A character that may stand in a comment or a string. -/
def isText
    (c : Char) : Bool :=
  c == '\t' || (32 ≤ c.toNat && c.toNat != 127)

/- A space or a tab. -/
def isSpaceOrTab
    (c : Char) : Bool :=
  c == ' ' || c == '\t'

/- The character that an escape with one letter stands for. -/
def escape? : Char → Option Char
  | 'b' => some '\x08'
  | 't' => some '\t'
  | 'n' => some '\n'
  | 'f' => some '\x0c'
  | 'r' => some '\r'
  | '"' => some '"'
  | '\\' => some '\\'
  | _ => none

/- How many digits an escape with a code has. -/
def codeLength? : Char → Option Nat
  | 'u' => some 4
  | 'U' => some 8
  | _ => none

/- The character with a code, unless it is a surrogate. -/
def ofCode?
    (code : Nat) : Option Char :=
  if code.isValidChar then some (Char.ofNat code) else none

------------------------------------------------------------
-- One line
------------------------------------------------------------

/- Where the pass over a string stands. -/
inductive Mode where
  | plain
  /- After a backslash. -/
  | escape
  /- Within the code of an escape. -/
  | code (left value : Nat)
  /- After a carriage return that needs a line feed. -/
  | newline
  /-
    After a backslash that ends a line. Tells whether the
    line feed was passed.
  -/
  | joining (passed : Bool)
  /- After a carriage return while joining lines. -/
  | joiningNewline
  /- After a number of quotes. -/
  | quotes (count : Nat)

/-
  Read the rest of a string in double quotes. The characters
  read before are given in reverse.
-/
def basicFrom?
    (found : List Char) :
    Mode → List Char → Option (String × List Char)
  | _, [] => none
  | .escape, c :: rest =>
      match escape? c, codeLength? c with
      | some e, _ => basicFrom? (e :: found) .plain rest
      | none, some n => basicFrom? found (.code n 0) rest
      | none, none => none
  | .code left value, c :: rest =>
      match hexDigit? c with
      | none => none
      | some d =>
          let value := value * 16 + d
          if left ≤ 1 then
            match ofCode? value with
            | some e => basicFrom? (e :: found) .plain rest
            | none => none
          else
            basicFrom? found (.code (left - 1) value) rest
  | _, c :: rest =>
      if c == '"' then some (String.ofList found.reverse, rest)
      else if c == '\\' then basicFrom? found .escape rest
      else if isText c then basicFrom? (c :: found) .plain rest
      else none

/- Read a string after its opening double quote. -/
def basic?
    (text : List Char) : Option (String × List Char) :=
  basicFrom? [] .plain text

/- Read a string after its opening single quote. -/
def literal?
    (text : List Char) : Option (String × List Char) :=
  let content := text.takeWhile (· != '\'')
  match text.drop content.length with
  | '\'' :: rest =>
      if content.all isText then
        some (String.ofList content, rest)
      else
        none
  | _ => none

------------------------------------------------------------
-- Several lines
------------------------------------------------------------

/- Drop one line ending at the start. -/
def dropNewline : List Char → List Char
  | '\n' :: rest => rest
  | '\r' :: '\n' :: rest => rest
  | text => text

/-
  Finish a string that was closed by the last three of a
  number of quotes.
-/
def close
    (quote : Char)
    (found : List Char)
    (count : Nat)
    (rest : List Char) : String × List Char :=
  (String.ofList
    (List.replicate (count - 3) quote ++ found).reverse, rest)

/-
  Read the rest of a string in three double quotes. One or
  two quotes may stand before the closing ones.
-/
def longBasicFrom?
    (found : List Char) :
    Mode → List Char → Option (String × List Char)
  | .quotes count, [] =>
      if count ≥ 3 then some (close '"' found count [])
      else none
  | _, [] => none
  | .quotes count, c :: rest =>
      if c == '"' then
        if count ≥ 4 then some (close '"' found 5 rest)
        else longBasicFrom? found (.quotes (count + 1)) rest
      else if count ≥ 3 then
        some (close '"' found count (c :: rest))
      else
        let found := List.replicate count '"' ++ found
        if c == '\\' then longBasicFrom? found .escape rest
        else if c == '\r' then longBasicFrom? found .newline rest
        else if c == '\n' || isText c then
          longBasicFrom? (c :: found) .plain rest
        else none
  | .escape, c :: rest =>
      if c == '\n' then longBasicFrom? found (.joining true) rest
      else if c == '\r' then
        longBasicFrom? found .joiningNewline rest
      else if isSpaceOrTab c then
        longBasicFrom? found (.joining false) rest
      else
        match escape? c, codeLength? c with
        | some e, _ => longBasicFrom? (e :: found) .plain rest
        | none, some n => longBasicFrom? found (.code n 0) rest
        | none, none => none
  | .code left value, c :: rest =>
      match hexDigit? c with
      | none => none
      | some d =>
          let value := value * 16 + d
          if left ≤ 1 then
            match ofCode? value with
            | some e => longBasicFrom? (e :: found) .plain rest
            | none => none
          else
            longBasicFrom? found (.code (left - 1) value) rest
  | .newline, c :: rest =>
      if c == '\n' then longBasicFrom? ('\n' :: found) .plain rest
      else none
  | .joiningNewline, c :: rest =>
      if c == '\n' then longBasicFrom? found (.joining true) rest
      else none
  | .joining false, c :: rest =>
      if isSpaceOrTab c then
        longBasicFrom? found (.joining false) rest
      else if c == '\n' then
        longBasicFrom? found (.joining true) rest
      else if c == '\r' then
        longBasicFrom? found .joiningNewline rest
      else none
  | .joining true, c :: rest =>
      if isSpaceOrTab c || c == '\n' then
        longBasicFrom? found (.joining true) rest
      else if c == '\r' then
        longBasicFrom? found .joiningNewline rest
      else if c == '"' then longBasicFrom? found (.quotes 1) rest
      else if c == '\\' then longBasicFrom? found .escape rest
      else if isText c then
        longBasicFrom? (c :: found) .plain rest
      else none
  | .plain, c :: rest =>
      if c == '"' then longBasicFrom? found (.quotes 1) rest
      else if c == '\\' then longBasicFrom? found .escape rest
      else if c == '\r' then longBasicFrom? found .newline rest
      else if c == '\n' || isText c then
        longBasicFrom? (c :: found) .plain rest
      else none

/- Read a string after its opening three double quotes. -/
def longBasic?
    (text : List Char) : Option (String × List Char) :=
  longBasicFrom? [] .plain (dropNewline text)

/- Read the rest of a string in three single quotes. -/
def longLiteralFrom?
    (found : List Char) :
    Mode → List Char → Option (String × List Char)
  | .quotes count, [] =>
      if count ≥ 3 then some (close '\'' found count [])
      else none
  | _, [] => none
  | .quotes count, c :: rest =>
      if c == '\'' then
        if count ≥ 4 then some (close '\'' found 5 rest)
        else longLiteralFrom? found (.quotes (count + 1)) rest
      else if count ≥ 3 then
        some (close '\'' found count (c :: rest))
      else
        let found := List.replicate count '\'' ++ found
        if c == '\r' then longLiteralFrom? found .newline rest
        else if c == '\n' || isText c then
          longLiteralFrom? (c :: found) .plain rest
        else none
  | .newline, c :: rest =>
      if c == '\n' then
        longLiteralFrom? ('\n' :: found) .plain rest
      else none
  | _, c :: rest =>
      if c == '\'' then longLiteralFrom? found (.quotes 1) rest
      else if c == '\r' then longLiteralFrom? found .newline rest
      else if c == '\n' || isText c then
        longLiteralFrom? (c :: found) .plain rest
      else none

/- Read a string after its opening three single quotes. -/
def longLiteral?
    (text : List Char) : Option (String × List Char) :=
  longLiteralFrom? [] .plain (dropNewline text)

end MailFilter.Toml.Quoted
