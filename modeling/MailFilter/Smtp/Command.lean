import MailFilter.Text.Utf8
import MailFilter.Text.Blank
import MailFilter.Text.Fold

/-
  This file defines the commands of an SMTP client, how they
  are read from a line, and how they are written.

  Verbs are compared up to case and have to be whole words.
  Arguments are kept as they were sent. Checking them is left
  to the state machine, which knows what to reply.

  Key definitions include:
    * `Smtp.Command`
    * `Smtp.Command.ofLine`
    * `Smtp.Command.ofBytes`
    * `Smtp.Command.render`
    * `Smtp.mailbox`
-/

namespace MailFilter.Smtp

open Text

/- A command. -/
inductive Command where
  | helo (host : String)
  | ehlo (host : String)
  /- The address attribute, if one was given. -/
  | xforward (address : Option String)
  | mailFrom (argument : String)
  | rcptTo (argument : String)
  | data
  | rset
  | noop
  | quit
  /- A line that is no command. -/
  | invalid (line : String)
deriving DecidableEq, Repr

namespace Command

------------------------------------------------------------
-- Reading
------------------------------------------------------------

/- Drop carriage returns and line feeds at the end. -/
def dropLineEnd
    (line : List Char) : List Char :=
  (line.reverse.dropWhile fun c => c == '\r' || c == '\n').reverse

/-
  The text after a verb, if the line starts with it as a
  whole word.
-/
def afterVerb?
    (verb : String)
    (line : List Char) : Option (List Char) :=
  match dropPrefix? verb.toList line with
  | some [] => some []
  | some (c :: rest) =>
      if isBlank c then some (c :: rest) else none
  | none => none

/- The argument in the text after a verb. -/
def argument
    (rest : List Char) : String :=
  String.ofList (trimChars rest)

/-
  The value of the address attribute: the word that follows
  its name and equals sign.
-/
def forwardedAddress?
    (rest : List Char) : Option String :=
  match dropThrough? "ADDR=".toList rest with
  | none => none
  | some value =>
      let word := firstWord value
      if word.isEmpty then none else some (String.ofList word)

/-
  Verbs with what they make of the text after them. The first
  one that fits counts.
-/
def readers : List (List Char → Option Command) :=
  [ fun line => (afterVerb? "QUIT" line).map fun _ => quit,
    fun line => (afterVerb? "HELO" line).map (helo ∘ argument),
    fun line => (afterVerb? "EHLO" line).map (ehlo ∘ argument),
    fun line =>
      (afterVerb? "XFORWARD" line).map
        (xforward ∘ forwardedAddress?),
    fun line =>
      (dropPrefix? "MAIL FROM:".toList line).map
        (mailFrom ∘ argument),
    fun line =>
      (dropPrefix? "RCPT TO:".toList line).map
        (rcptTo ∘ argument),
    fun line => (afterVerb? "DATA" line).map fun _ => data,
    fun line => (afterVerb? "RSET" line).map fun _ => rset,
    fun line => (afterVerb? "NOOP" line).map fun _ => noop ]

/- Read a command from the characters of a line. -/
def ofChars
    (line : List Char) : Command :=
  let line := dropLineEnd line
  (readers.findSome? (· line)).getD
    (.invalid (String.ofList line))

/- Read a command from a line. -/
def ofLine
    (line : String) : Command :=
  ofChars line.toList

/-
  Read a command from the bytes of a line. A line that is not
  well-formed UTF-8 is no command.
-/
def ofBytes
    (line : Bytes) : Command :=
  match Utf8.decode? line with
  | some text => ofLine text
  | none => .invalid (Utf8.decodeLossy line)

/- The line was recognized as a command. -/
def IsRecognized : Command → Prop
  | .invalid _ => False
  | _ => True

instance
    (command : Command) :
    Decidable (IsRecognized command) := by
  cases command <;> unfold IsRecognized <;> infer_instance

------------------------------------------------------------
-- Writing
------------------------------------------------------------

/- The line of a command, without its line ending. -/
def render : Command → String
  | .helo host => "HELO " ++ host
  | .ehlo host => "EHLO " ++ host
  | .xforward address => "XFORWARD ADDR=" ++ address.getD ""
  | .mailFrom argument => "MAIL FROM:" ++ argument
  | .rcptTo argument => "RCPT TO:" ++ argument
  | .data => "DATA"
  | .rset => "RSET"
  | .noop => "NOOP"
  | .quit => "QUIT"
  | .invalid line => line

/- The name of a kind of command. -/
def kind : Command → String
  | .helo _ => "Helo"
  | .ehlo _ => "Ehlo"
  | .xforward _ => "Xforward"
  | .mailFrom _ => "MailFrom"
  | .rcptTo _ => "RcptTo"
  | .data => "Data"
  | .rset => "Rset"
  | .noop => "Noop"
  | .quit => "Quit"
  | .invalid _ => "Invalid"

/- The argument of a command, if it has one. -/
def argument? : Command → Option String
  | .helo host => some host
  | .ehlo host => some host
  | .xforward address => address
  | .mailFrom argument => some argument
  | .rcptTo argument => some argument
  | .invalid line => some line
  | _ => none

end Command

------------------------------------------------------------
-- Mailboxes
------------------------------------------------------------

/-
  The mailbox in an argument: what stands between angle
  brackets if it starts with one, or else its first word.
-/
def mailboxChars
    (argument : List Char) : List Char :=
  match trimChars argument with
  | '<' :: rest => trimChars (rest.takeWhile (· != '>'))
  | word => trimChars (firstWord word)

/- The mailbox in an argument. -/
def mailbox
    (argument : String) : String :=
  String.ofList (mailboxChars argument.toList)

end MailFilter.Smtp
