import MailFilter.Message.Header
import MailFilter.Message.Addresses

/-
  This file defines messages: the header fields of a byte
  string and the place where its body starts.

  The body itself is never held. It stays where the message
  was read from, and is not touched by changes of the header.

  Key definitions include:
    * `Message`
    * `Message.ParseError`
    * `Message.parse`
    * `Message.block`
    * `Message.appendHeader`
    * `Message.prependHeader`
    * `Message.setHeader`
    * `Message.removeHeader`
    * `Message.sender`
    * `Message.recipients`
-/

namespace MailFilter

open Bytes

/-
  The header fields of a message, the offset of its body, and
  whether its first line ended in a carriage return and a
  line feed.
-/
structure Message where
  headers : List Header := []
  bodyOffset : Nat := 0
  crlf : Bool := false
deriving DecidableEq, Repr

namespace Message

------------------------------------------------------------
-- Reading
------------------------------------------------------------

/- Why a header block cannot be read. -/
inductive ParseError where
  /- A carriage return alone stands where a field starts. -/
  | loneCr
  /- A space stands where a field starts. -/
  | overhang
deriving DecidableEq, Repr

/- The text of an error. -/
def ParseError.text : ParseError → String
  | .loneCr =>
      "Headers were followed by an unexpected lone CR character!"
  | .overhang =>
      "Header cannot start with a space; it is likely an " ++
        "overhanging line from a previous header"

/-
  Read fields up to a blank line or the end. The fields read
  before are given in reverse. Gives the fields and the body.
-/
def fieldsFrom
    (found : List Header)
    (data : Bytes) : Except ParseError (List Header × Bytes) :=
  match data with
  | [] => .ok (found.reverse, [])
  | b :: rest =>
      if b == lf then .ok (found.reverse, rest)
      else if b == cr then
        match rest with
        | lf :: body => .ok (found.reverse, body)
        | _ => .error .loneCr
      else if b == space then .error .overhang
      else
        fieldsFrom ((Header.take (b :: rest)).1 :: found)
          (Header.take (b :: rest)).2
termination_by data.length
decreasing_by
  exact Header.length_takeLines_lt (by simp)

/- Read the header block of a message. -/
def parse
    (raw : Bytes) : Except ParseError Message :=
  match fieldsFrom [] raw with
  | .error e => .error e
  | .ok (headers, body) =>
      .ok {
        headers := headers
        bodyOffset := raw.length - body.length
        crlf := endsInCrlf (splitLine raw).1
      }

------------------------------------------------------------
-- Writing
------------------------------------------------------------

/- The line ending of a message. -/
def lineEnding
    (message : Message) : Bytes :=
  if message.crlf then Bytes.crlf else [lf]

/-
  The header block of a message with the blank line that ends
  it. Fields that nobody changed are written as they were
  read.
-/
def block
    (message : Message) : Bytes :=
  (message.headers.flatMap fun header =>
    header.line ++ message.lineEnding) ++ message.lineEnding

/- Record that the header block was written. -/
def rebase
    (message : Message) : Message :=
  { message with bodyOffset := message.block.length }

------------------------------------------------------------
-- Fields
------------------------------------------------------------

/- All values of the fields with a name, in order. -/
def values
    (message : Message)
    (name : String) : List String :=
  (message.headers.filter (·.isNamed name)).map Header.value

/- The first value of the fields with a name. -/
def value?
    (message : Message)
    (name : String) : Option String :=
  (message.values name).head?

/- Add a field at the end. -/
def appendHeader
    (message : Message)
    (name value : String) : Message :=
  { message with
    headers := message.headers ++ [⟨name, value, none⟩] }

/- Add a field at the start. -/
def prependHeader
    (message : Message)
    (name value : String) : Message :=
  { message with
    headers := ⟨name, value, none⟩ :: message.headers }

/-
  Give the first field with a name another value and drop the
  other ones, or add a field at the end if there is none.
-/
def setHeader
    (message : Message)
    (name value : String) : Message :=
  match message.headers.dropWhile (!·.isNamed name) with
  | [] => message.appendHeader name value
  | first :: rest =>
      { message with
        headers :=
          message.headers.takeWhile (!·.isNamed name) ++
            first.setValue value ::
            rest.filter (!·.isNamed name) }

/- Drop all fields with a name. -/
def removeHeader
    (message : Message)
    (name : String) : Message :=
  { message with
    headers := message.headers.filter (!·.isNamed name) }

/- How many fields have a name. -/
def countHeader
    (message : Message)
    (name : String) : Nat :=
  message.headers.countP (·.isNamed name)

------------------------------------------------------------
-- Addresses
------------------------------------------------------------

/- The addresses in the fields with a name. -/
def addresses
    (message : Message)
    (name : String) : List String :=
  (message.values name).flatMap Addresses.read

/- The address that the message is from. -/
def sender
    (message : Message) : Option String :=
  (message.addresses "From").head?

/- The addresses that the message is for. -/
def recipients
    (message : Message) : List String :=
  message.addresses "To" ++ message.addresses "Cc" ++
    message.addresses "Bcc"

end Message

end MailFilter
