import MailFilter.Smtp.Framing
import MailFilter.Spool.Basic

/-
  This file defines how the lines of a message are taken and
  written to its spool file.

  A dot that starts a line is dropped. While the header block
  lasts, the receiver notes which of the fields that every
  message needs are there.

  Key definitions include:
    * `Smtp.Seen`
    * `Smtp.headerName?`
    * `Smtp.Receiver`
    * `Smtp.Receiver.push`
    * `Smtp.Receiver.finish`
    * `Smtp.Received`
-/

namespace MailFilter.Smtp

open Bytes
open World

------------------------------------------------------------
-- Fields of a header block
------------------------------------------------------------

/- What a header block has. -/
structure Seen where
  messageId : Bool := false
  date : Bool := false
  recipient : Bool := false
  sender : Bool := false
  /- Any field at all. -/
  any : Bool := false
  /- The blank line that ends the block. -/
  terminated : Bool := false
deriving DecidableEq, Repr

namespace Seen

/- Note a field by its name in lower case. -/
def record
    (seen : Seen)
    (name : Bytes) : Seen :=
  let seen := { seen with any := true }
  if name = Utf8.encode "message-id" then
    { seen with messageId := true }
  else if name = Utf8.encode "date" then
    { seen with date := true }
  else if name = Utf8.encode "to" then
    { seen with recipient := true }
  else if name = Utf8.encode "from" then
    { seen with sender := true }
  else seen

/- The block has all that a message needs. -/
def IsComplete
    (seen : Seen) : Prop :=
  seen.messageId ∧ seen.date ∧ seen.recipient ∧
    seen.sender ∧ seen.any ∧ seen.terminated

instance
    (seen : Seen) :
    Decidable (IsComplete seen) := by
  unfold IsComplete
  infer_instance

end Seen

/-
  The name in a line that is a name, a colon and a value. The
  name has to be of printable characters without spaces.
-/
def headerName?
    (line : Bytes) : Option Bytes :=
  let name := line.takeWhile (· != colon)
  if name.length < line.length && !name.isEmpty &&
      name.all isGraphic
  then some name
  else none

/- The line is nothing but a line ending. -/
def IsBlank
    (line : Bytes) : Prop :=
  line = [cr, lf] ∨ line = [lf]

instance
    (line : Bytes) :
    Decidable (IsBlank line) := by
  unfold IsBlank
  infer_instance

------------------------------------------------------------
-- Receiving
------------------------------------------------------------

/-
  A message under way: its spool file, its lines so far in
  reverse with their size, and what is known of its header
  block, namely whether it still lasts, its fields, its
  length, and whether its first line ends the way of the
  wire.
-/
structure Receiver where
  path : Path
  lines : List Bytes := []
  size : Nat := 0
  inHeader : Bool := true
  seen : Seen := {}
  headerEnd : Nat := 0
  crlf : Option Bool := none
deriving DecidableEq

/- A message that has been received and spooled. -/
structure Received where
  path : Path
  size : Nat
  seen : Seen
  /- Where in the spool file the header block stops. -/
  headerEnd : Nat
  crlf : Bool
deriving DecidableEq

/- The line ending of a message. -/
def Received.lineEnding
    (received : Received) : String :=
  if received.crlf then "\r\n" else "\n"

/- What became of a message when it was complete. -/
inductive Reception where
  | received (message : Received)
  /- The message was too large and has been discarded. -/
  | tooLarge (size : Nat)
deriving DecidableEq

namespace Receiver

/-
  What a line of the header block tells. Gives nothing if the
  block stops at the line.
-/
def trackField?
    (seen : Seen)
    (line : Bytes) : Option Seen :=
  if seen.any && line.head?.any isSpaceOrTab then
    -- The line continues the field before it.
    some seen
  else
    match headerName? line with
    | some name => some (seen.record (name.map toLower))
    | none => none

/- Follow the header block through a line. -/
def track
    (receiver : Receiver)
    (line : Bytes) : Receiver :=
  let crlf := receiver.crlf.getD (endsInCrlf line)
  let receiver := { receiver with crlf := some crlf }
  if receiver.inHeader then
    if IsBlank line then
      { receiver with
        inHeader := false
        seen := { receiver.seen with terminated := true } }
    else
      match trackField? receiver.seen line with
      | some seen =>
          { receiver with
            seen := seen
            headerEnd := receiver.headerEnd + line.length }
      | none => { receiver with inHeader := false }
  else
    receiver

/- Drop a dot at the start of a line. -/
def unstuff : Bytes → Bytes
  | dot :: rest => rest
  | line => line

/- Take a line that belongs to the message. -/
def takeLine
    (receiver : Receiver)
    (line : Bytes) : Receiver :=
  let line := unstuff line
  let receiver := receiver.track line
  { receiver with
    lines := line :: receiver.lines
    size := receiver.size + line.length }

/-
  Take a line as it was received. Tells whether it was the
  one that ends the message.
-/
def push
    (receiver : Receiver)
    (line : Bytes) : Bool × Receiver :=
  if IsTerminator line then (true, receiver)
  else (false, receiver.takeLine line)

/- All that was received. -/
def content
    (receiver : Receiver) : Bytes :=
  receiver.lines.reverse.flatten

/-
  Store the spool file. A message that is larger than
  `maxSize` is removed, unless that is 0.
-/
def finish
    (receiver : Receiver)
    (maxSize : Nat) : Run (Except SpoolError Reception) := do
  match ← Spool.store receiver.path receiver.content with
  | .error e => return .error e
  | .ok () =>
      if 0 < maxSize ∧ maxSize < receiver.size then
        say .info
          ("Message of " ++ toString receiver.size ++
            " bytes exceeds the limit of " ++
            toString maxSize)
        Spool.remove receiver.path
        return .ok (.tooLarge receiver.size)
      else
        return .ok (.received {
          path := receiver.path
          size := receiver.size
          seen := receiver.seen
          headerEnd := receiver.headerEnd
          crlf := receiver.crlf.getD true })

end Receiver

end MailFilter.Smtp
