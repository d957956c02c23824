import MailFilter.Log
import MailFilter.Relay.DotStuffing
import MailFilter.Relay.Response

/-
  This file defines the client that hands a message to a
  relay.

  The client works over any connection that can be written to
  and read from. It waits for the reply to each command
  before it sends the next one, and the message counts as
  handed over only when the relay accepts the message data.

  Key definitions include:
    * `Relay.Transport`
    * `Relay.Client`
    * `Relay.Dialogue`
    * `Relay.readResponse`
    * `Relay.command`
    * `Relay.deliver`
-/

namespace MailFilter.Relay

open Bytes
open Log (Event)

------------------------------------------------------------
-- Connections
------------------------------------------------------------

/-
  A connection with states `σ`. Reading gives at most the
  number of bytes asked for, and none at the end.
-/
structure Transport (σ : Type) where
  write : Bytes → σ → Except Fault Unit × σ
  read : Nat → σ → Except Fault Bytes × σ

/-
  The state of a client: the connection, what was read and
  not used, how much may be read before the buffer grows,
  what was written, and what was logged. The last two have
  the newest first.
-/
structure Client (σ : Type) where
  stream : σ
  buffer : Bytes := []
  capacity : Nat := 4096
  sent : List Bytes := []
  log : List Event := []

/- A part of the dialogue with a relay. -/
abbrev Dialogue (σ : Type) :=
  ExceptT DeliveryError (StateM (Client σ))

variable {σ : Type}

/- The relay that a client talks to. -/
structure Peer (σ : Type) where
  transport : Transport σ
  address : String

------------------------------------------------------------
-- Reading
------------------------------------------------------------

/- Replies are never longer than this. -/
def maxReply : Nat :=
  64 * 1024

/- The room for a reply, once the buffer has grown. -/
def grown
    (capacity used : Nat) : Nat :=
  if used < capacity then capacity else 2 * capacity

/- The error for a reply that is too long. -/
def replyTooLong : DeliveryError :=
  .malformedReply
    ("Reply exceeds " ++ toString maxReply ++ " bytes")

/-
  Read until the buffer holds a complete reply. Gives the
  reply and the client with what follows it.
-/
def readReply
    (peer : Peer σ)
    (client : Client σ) :
    Except DeliveryError Response × Client σ :=
  match Response.parse client.buffer with
  | .error e => (.error e, client)
  | .ok (some (response, rest)) =>
      (.ok response, { client with buffer := rest })
  | .ok none =>
      let capacity := grown client.capacity client.buffer.length
      if capacity ≤ maxReply then
        let room := capacity - client.buffer.length
        let (result, stream) :=
          peer.transport.read room client.stream
        match result with
        | .error fault =>
            (.error (.connection peer.address fault),
              { client with stream := stream })
        | .ok data =>
            match _ : data.take room with
            | [] =>
                (.error (.connection peer.address .endOfFile),
                  { client with stream := stream })
            | b :: more =>
                readReply peer { client with
                  stream := stream
                  capacity := capacity
                  buffer := client.buffer ++ b :: more }
      else
        (.error replyTooLong, client)
termination_by maxReply - client.buffer.length
decreasing_by
  rename_i hTaken
  have hSize := congrArg List.length hTaken
  simp only [List.length_take, List.length_cons] at hSize
  simp only [List.length_append, List.length_cons]
  omega

/- Log an event of the dialogue. -/
def logged
    (event : Event) : Dialogue σ Unit :=
  modify fun client =>
    { client with log := event :: client.log }

/- Read a reply. -/
def readResponse
    (peer : Peer σ) : Dialogue σ Response := do
  let response ← ExceptT.mk (readReply peer)
  logged {
    span := .incoming
    text := toString response.code ++ " " ++ response.message }
  return response

------------------------------------------------------------
-- Writing
------------------------------------------------------------

/- Write bytes in one piece. -/
def send
    (peer : Peer σ)
    (data : Bytes) : Dialogue σ Unit :=
  ExceptT.mk fun client =>
    let (result, stream) :=
      peer.transport.write data client.stream
    let client :=
      { client with
        stream := stream
        sent := data :: client.sent }
    match result with
    | .ok () => (.ok (), client)
    | .error fault =>
        (.error (.connection peer.address fault), client)

/- Send a command and read the reply to it. -/
def command
    (peer : Peer σ)
    (line : String) : Dialogue σ Response := do
  logged { span := .outgoing, text := line }
  send peer (Utf8.encode line ++ crlf)
  readResponse peer

/- Send a command that has to be answered by some codes. -/
def commandRequiring
    (peer : Peer σ)
    (line : String)
    (codes : List Nat) : Dialogue σ Unit := do
  let response ← command peer line
  let _ ← ExceptT.mk (pure (response.require codes))

------------------------------------------------------------
-- The dialogue
------------------------------------------------------------

/- Name the recipients one after the other. -/
def nameRecipients
    (peer : Peer σ) : List String → Dialogue σ Unit
  | [] => pure ()
  | recipient :: rest => do
      commandRequiring peer ("RCPT TO:<" ++ recipient ++ ">")
        [250, 251]
      nameRecipients peer rest

/- Say who is talking, the extended way first. -/
def greet
    (peer : Peer σ)
    (helo : String) : Dialogue σ Unit := do
  let response ← command peer ("EHLO " ++ helo)
  if response.code = 250 then return
  commandRequiring peer ("HELO " ++ helo) [250]

/- Send the message and have it accepted. -/
def sendData
    (peer : Peer σ)
    (data : Bytes) : Dialogue σ Unit := do
  commandRequiring peer "DATA" [354]
  logged {
    span := .outgoing
    text := "<" ++ toString data.length ++
      " bytes of message data>" }
  send peer (dotStuff data)
  send peer terminator
  let response ← readResponse peer
  let _ ← ExceptT.mk (pure (response.require [250]))

/- End the dialogue, whatever the relay makes of it. -/
def quit
    (peer : Peer σ) : Dialogue σ Unit :=
  tryCatch (do let _ ← command peer "QUIT") fun e =>
    logged (.internal .debug
      ("Relay " ++ peer.address ++ " did not answer QUIT: " ++
        e.text))

/- Hand over a message with its sender and recipients. -/
def deliver
    (peer : Peer σ)
    (helo sender : String)
    (recipients : List String)
    (data : Bytes) : Dialogue σ Unit := do
  let greeting ← readResponse peer
  let _ ← ExceptT.mk (pure (greeting.require [220]))
  greet peer helo
  commandRequiring peer ("MAIL FROM:<" ++ sender ++ ">") [250]
  nameRecipients peer recipients
  sendData peer data
  quit peer

/- Hand over a message on a new connection. -/
def run
    (peer : Peer σ)
    (stream : σ)
    (helo sender : String)
    (recipients : List String)
    (data : Bytes) :
    Except DeliveryError Unit × Client σ :=
  (deliver peer helo sender recipients data).run.run
    { stream := stream }

end MailFilter.Relay
