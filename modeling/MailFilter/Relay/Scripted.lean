import MailFilter.Relay.Client

/-
  This file defines a relay that answers by a script.

  The relay sends the first entry of its script at once, and
  one more entry for each line that it receives. After a DATA
  command that it answered with 354, it takes lines without
  answering up to the one that ends the message. When it has
  sent its last entry it closes its side.

  Key definitions include:
    * `Relay.Scripted`
    * `Relay.Scripted.connect`
    * `Relay.Scripted.transport`
-/

namespace MailFilter.Relay

open Bytes

/-
  The entries that are left, what was sent and not read yet,
  the start of a line that is not complete, whether message
  data are being taken, and all that was received, with the
  newest first.
-/
structure Scripted where
  entries : List Bytes
  outgoing : Bytes := []
  fragment : Bytes := []
  inData : Bool := false
  received : List Bytes := []

namespace Scripted

/- The reply to a command that asks for the message data. -/
def goAhead : Bytes :=
  Utf8.encode "354"

/- The command that announces the message data. -/
def dataCommand : Bytes :=
  Utf8.encode "DATA" ++ crlf

/- Send the next entry in answer to a line. -/
def answer
    (state : Scripted)
    (line : Bytes) : Scripted :=
  match state.entries with
  | [] => { state with inData := false }
  | entry :: rest =>
      { state with
        entries := rest
        outgoing := state.outgoing ++ entry
        inData :=
          line == dataCommand && goAhead.isPrefixOf entry }

/- Take a complete line. -/
def takeLine
    (state : Scripted)
    (line : Bytes) : Scripted :=
  if state.inData && line != terminator then state
  else state.answer line

/- Take the lines of what was received, and keep the rest. -/
def takeLines : List Bytes → Scripted → Scripted
  | [], state => { state with fragment := [] }
  | line :: rest, state =>
      if rest.isEmpty && line.getLast? != some lf then
        { state with fragment := line }
      else
        takeLines rest (state.takeLine line)

/- Receive bytes. The relay takes all that it is sent. -/
def write
    (data : Bytes)
    (state : Scripted) : Except Fault Unit × Scripted :=
  let state := { state with received := data :: state.received }
  (.ok (), takeLines (lines (state.fragment ++ data)) state)

/-
  Read what the relay sent. If it sent nothing and could send
  more, it is waiting for a line that does not come.
-/
def read
    (room : Nat)
    (state : Scripted) : Except Fault Bytes × Scripted :=
  if state.outgoing.isEmpty && !state.entries.isEmpty then
    (.error .timedOut, state)
  else
    (.ok (state.outgoing.take room),
      { state with outgoing := state.outgoing.drop room })

/- Connect to a relay with a script. -/
def connect
    (script : List Bytes) : Scripted :=
  answer { entries := script } []

/- The connection. -/
def transport : Transport Scripted :=
  ⟨write, read⟩

/- All that the relay received. -/
def transcript
    (state : Scripted) : Bytes :=
  state.received.reverse.flatten

end Scripted

end MailFilter.Relay
