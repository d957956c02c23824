import MailFilter.Spool.Basic

/-
  This file defines where messages go when they have been
  processed.

  A value that names something other than a directory is a
  file to copy messages to. Any other value names a relay, by
  host or by host and port.

  Key definitions include:
    * `Nexthop`
    * `Nexthop.parse`
    * `Nexthop.find?`
    * `Nexthop.deliver`
-/

namespace MailFilter

open World

/- Where a message goes. -/
inductive Nexthop where
  | file (path : Path)
  | relay (host : String) (port : Nat)
deriving DecidableEq, Repr

namespace Nexthop

------------------------------------------------------------
-- Values
------------------------------------------------------------

/- The port of a relay that is named without one. -/
def defaultPort : Nat :=
  25

/- Write a nexthop. -/
def render : Nexthop → String
  | .file path => path.render
  | .relay host port => host ++ ":" ++ toString port

/-
  Split a text at its last colon. Gives what stands before
  and after it.
-/
def splitPort?
    (value : List Char) : Option (List Char × List Char) :=
  match value.reverse.dropWhile (· != ':') with
  | [] => none
  | _ :: host =>
      some (host.reverse,
        (value.reverse.takeWhile (· != ':')).reverse)

/- The host and port that a value names. -/
def hostPort
    (value : List Char) : List Char × Nat :=
  match splitPort? value with
  | none => (value, defaultPort)
  | some (host, port) =>
      if !host.contains ':' || host.getLast? == some ']' then
        match Decimal.readWord? 16 port with
        | some port => (host, port)
        | none => (value, defaultPort)
      else
        (value, defaultPort)

/- Drop brackets around a host. -/
def dropBrackets
    (host : List Char) : List Char :=
  ((host.dropWhile (· == '[')).reverse.dropWhile
    (· == ']')).reverse

/- Read a value, given what files there are. -/
def parse
    (files : Files)
    (value : String) : Nexthop :=
  if files.hasOther (.named value) then .file (.named value)
  else
    let (host, port) := hostPort value.toList
    .relay (String.ofList (dropBrackets host)) port

/- The nexthop of the settings, if they have one. -/
def find?
    (files : Files)
    (settings : Settings) : Option Nexthop :=
  match settings.global.nexthop with
  | none => none
  | some value =>
      let value := Text.trim value
      if value.isEmpty then none else some (parse files value)

------------------------------------------------------------
-- Delivery
------------------------------------------------------------

/- Copy the spool file of a transaction. -/
def copyTo
    (t : Transaction)
    (target : Path) : Run (Except DeliveryError Unit) := do
  let source := t.envelope.messageFile
  say .trace
    ("Copying " ++ source.render ++ " to " ++ target.render)
  let w ← get
  match w.files.copy source target with
  | .ok files =>
      setFiles files
      return .ok ()
  | .error fault => return .error (.file target fault)

/-
  The transaction with the recipients of its message if the
  envelope has none.
-/
def withRecipients
    (t : Transaction) : Transaction :=
  if t.envelope.recipients.isEmpty then
    { t with
      envelope :=
        { t.envelope with
          recipients :=
            (t.message.map Message.recipients).getD [] } }
  else
    t

/- Talk to a relay on a new connection. -/
def talk
    (t : Transaction)
    (address : String)
    (script : List Bytes)
    (data : Bytes) : Run (Except DeliveryError Unit) := do
  say .debug ("Connected to relay " ++ address)
  let w ← get
  let (result, client) :=
    Relay.run ⟨Relay.Scripted.transport, address⟩
      (Relay.Scripted.connect script) w.machine
      (t.envelope.sender.getD "") t.envelope.recipients data
  emitAll client.log
  modify fun w => { w with
    network := { w.network with
      transcripts :=
        client.stream.transcript :: w.network.transcripts } }
  return result

/- Hand the spool file of a transaction to a relay. -/
def relayTo
    (t : Transaction)
    (host : String)
    (port : Nat) : Run (Except DeliveryError Unit) := do
  let address := render (.relay host port)
  let source := t.envelope.messageFile
  let w ← get
  match w.files.read source with
  | .error fault => return .error (.file source fault)
  | .ok data =>
      match w.network.relays.lookup (host, port) with
      | none =>
          return .error (.connection address w.network.refusal)
      | some script => talk t address script data

/-
  Hand the message of a transaction on. A relay gets the
  recipients of the message if the envelope has none.
-/
def deliver
    (nexthop : Nexthop)
    (t : Transaction) :
    Run (Except DeliveryError Unit × Transaction) := do
  match nexthop with
  | .file path => return (← copyTo t path, t)
  | .relay host port =>
      let t := withRecipients t
      return (← relayTo t host port, t)

end Nexthop

end MailFilter
