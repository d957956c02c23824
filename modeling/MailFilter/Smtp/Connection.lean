import MailFilter.Chain.Queue
import MailFilter.Smtp.Completion
import MailFilter.Smtp.Phase
import MailFilter.Smtp.Policy

/-
  This file defines a client connection from its greeting to
  its end.

  The connection reads commands and answers them. After a
  DATA command that was answered by 354 it reads a message,
  sends it through the chain and replies to it. However the
  connection ends, no spool file is left.

  Key definitions include:
    * `Smtp.SessionError`
    * `Smtp.Service`
    * `Smtp.Dialog`
    * `Smtp.Dialog.send`
    * `Smtp.processMessage`
    * `Smtp.receive`
    * `Smtp.serve`
    * `Smtp.run`
-/

namespace MailFilter.Smtp

open World

------------------------------------------------------------
-- Connections
------------------------------------------------------------

/- What ends a connection before its time. -/
inductive SessionError where
  /- Reading from or writing to the client failed. -/
  | connection (fault : Fault)
  /- The client was idle for too long. -/
  | timeout (seconds : Nat)
deriving DecidableEq, Repr

namespace SessionError

/- The text of an error. -/
def text : SessionError → String
  | .connection fault => "Connection error: " ++ fault.text
  | .timeout seconds =>
      "Session timed out after " ++ toString seconds ++
        " seconds"

/- The client went quiet. -/
def IsTimeout : SessionError → Prop
  | .timeout _ => True
  | .connection _ => False

instance
    (error : SessionError) :
    Decidable (IsTimeout error) := by
  cases error <;> unfold IsTimeout <;> infer_instance

end SessionError

/- What all connections share. -/
structure Service where
  settings : Settings
  queue : Queue
  hostname : String

/-
  What was sent to a client, the newest line first, and how
  many more lines can be sent, if that is limited.
-/
structure Outbound where
  written : List Bytes := []
  writes : Option Nat := none
deriving DecidableEq

/- A connection between two commands. -/
structure Dialog where
  phase : Phase := .init
  context : Context
  outbound : Outbound := {}

/- How a connection stands, and whether it has failed. -/
abbrev Progress :=
  Except SessionError Unit × Dialog

namespace Dialog

/- The transaction of a connection. -/
def transaction
    (d : Dialog) : Transaction :=
  d.context.transaction

/- Take over a transaction. -/
def withTransaction
    (d : Dialog)
    (t : Transaction) : Dialog :=
  { d with context := { d.context with transaction := t } }

------------------------------------------------------------
-- Sending
------------------------------------------------------------

/- Write one line. -/
def write
    (d : Dialog)
    (line : String) : Progress :=
  match d.outbound.writes with
  | some 0 => (.error (.connection .brokenPipe), d)
  | writes =>
      (.ok (), { d with
        outbound := {
          written :=
            (Utf8.encode line ++ Bytes.crlf) ::
              d.outbound.written
          writes := writes.map (· - 1) } })

/- Send lines to the client. -/
def send
    (d : Dialog) : List String → Run Progress
  | [] => return (.ok (), d)
  | line :: rest => do
      emit {
        span := .outgoing
        transaction := some d.transaction.id
        text := line }
      match d.write line with
      | (.ok (), d) => d.send rest
      | (.error e, d) => return (.error e, d)

/- Send a reply to the client. -/
def reply
    (d : Dialog)
    (reply : Reply) : Run Progress :=
  d.send [reply.render]

/-
  The client is gone. One that went quiet is told so, if that
  is possible.
-/
def lose
    (d : Dialog)
    (ending : Ending) : Run Progress := do
  match ending with
  | .closed => return (.ok (), d)
  | .failed text => return (.error (.connection (.other text)), d)
  | .stalled =>
      let settings := d.context.settings
      match ← d.reply (.configured settings .unavailable) with
      | (.error e, d) => return (.error e, d)
      | (.ok (), d) =>
          return (.error (.timeout settings.smtpd.timeout), d)

/-
  Start a new transaction, in which the client still is who
  it said it was.
-/
def nextTransaction
    (d : Dialog) : Run Dialog := do
  let last := d.transaction
  let t ← newTransaction
  let t :=
    { t with helo := last.helo, xforwardAddr := last.xforwardAddr }
  return { d.withTransaction t with phase := .helo }

end Dialog

------------------------------------------------------------
-- Messages
------------------------------------------------------------

/- The reply to a message that went through the chain. -/
def finalReply
    (settings : Settings)
    (disposition : Disposition)
    (t : Transaction) : Reply :=
  match t.reply with
  | some reply => reply
  | none =>
      if disposition = .aborted then
        .configured settings .actionUnavailable
      else
        ⟨.ok, t.responseMsg.getD accepted⟩

/- Complete a received message and load it. -/
def loadReceived
    (service : Service)
    (received : Received)
    (t : Transaction) : Run (Except LoadError Message) := do
  let completion : Completion :=
    ⟨service.hostname, t.envelope.sender⟩
  match ←
    completion.apply service.settings.global.queueDir
      received with
  | .error e => return .error (.spool e)
  | .ok _ => Spool.load received.path

/- Send a received message through the chain. -/
def processMessage
    (service : Service)
    (received : Received)
    (t : Transaction) : Run (Reply × Transaction) := do
  let settings := service.settings
  sayOf .debug t
    ("Data complete, message size: " ++ toString received.size)
  match ← loadReceived service received t with
  | .error e =>
      sayOf .error t e.text
      return (.configured settings .actionUnavailable, t)
  | .ok message =>
      let t := t.withMessage (some message)
      let (result, t) ← service.queue.process settings t
      match result with
      | .error e =>
          sayOf .error t e.text
          return (.configured settings e.status, t)
      | .ok disposition =>
          sayOf .info t ("Processing " ++ disposition.name)
          return (finalReply settings disposition t,
            { t with reply := none })

/- Deal with the lines of a message. Gives the reply to it. -/
def receiveLines
    (service : Service)
    (lines : List Bytes)
    (t : Transaction) : Run (Reply × Transaction) := do
  let settings := service.settings
  let path := t.envelope.messageFile
  let receiver := lines.foldl Receiver.takeLine { path := path }
  match ← receiver.finish settings.global.maxSize with
  | .error e =>
      sayOf .error t e.text
      Spool.remove path
      return (.configured settings e.status, t)
  | .ok (.tooLarge _) =>
      return (.configured settings .exceededStorage, t)
  | .ok (.received received) =>
      let result ← processMessage service received t
      Spool.remove received.path
      return result

/-
  Deal with what follows a DATA command. The spool file is
  gone afterwards.
-/
def receive
    (service : Service)
    (message : MessageRead)
    (d : Dialog) : Run Progress := do
  let d := { d with context := { d.context with spoolOpen := false } }
  let t := d.transaction
  let path := t.envelope.messageFile
  match message with
  | .ended .closed =>
      sayOf .warn t "Connection closed during DATA"
      Spool.remove path
      return (.ok (), d)
  | .ended ending =>
      let result ← d.lose ending
      Spool.remove path
      return result
  | .tooLong _ =>
      sayOf .warn t
        ("Message has a line longer than " ++
          toString maxDataLine ++ " bytes")
      Spool.remove path
      match ← d.reply Refusal.lineTooLong with
      | (.error e, d) => return (.error e, d)
      | (.ok (), d) => return (.ok (), ← d.nextTransaction)
  | .complete lines _ =>
      let (reply, t) ← receiveLines service lines t
      let d := d.withTransaction t
      match ← d.reply reply with
      | (.error e, d) => return (.error e, d)
      | (.ok (), d) => return (.ok (), ← d.nextTransaction)

------------------------------------------------------------
-- Commands
------------------------------------------------------------

/- Carry out a command line and answer it. -/
def answerLine
    (line : Bytes)
    (d : Dialog) : Run Progress := do
  let command := Command.ofBytes line
  emit {
    span := .incoming
    transaction := some d.transaction.id
    text := command.render }
  let (phase, context, answer) ← d.phase.step command d.context
  { d with phase := phase, context := context }.send answer.lines

/- Note that a command line is too long. -/
def noteTooLong
    (d : Dialog) : Run Unit :=
  sayOf .warn d.transaction
    ("Command line longer than " ++ toString maxCommandLine ++
      " bytes")

/- Serve a client up to the end of its connection. -/
def serve
    (service : Service)
    (input : Inbound)
    (d : Dialog) : Run Progress := do
  match _ : readCommand input with
  | .ended ending => d.lose ending
  | .tooLong (.ended ending) =>
      noteTooLong d
      d.lose ending
  | .tooLong (.through rest) =>
      noteTooLong d
      match ← d.reply Refusal.lineTooLong with
      | (.error e, d) => return (.error e, d)
      | (.ok (), d) => serve service rest d
  | .line line rest =>
      match ← answerLine line d with
      | (.error e, d) => return (.error e, d)
      | (.ok (), d) =>
          if d.phase = .quit then return (.ok (), d)
          else if d.context.spoolOpen then
            let message := readMessage rest
            match ← receive service message d with
            | (.error e, d) => return (.error e, d)
            | (.ok (), d) =>
                match _ : message.rest? with
                | none => return (.ok (), d)
                | some rest => serve service rest d
          else
            serve service rest d
termination_by input.data.length
decreasing_by
  · rename_i hCommand
    exact length_of_readCommand_tooLong hCommand
  · rename_i hCommand hAfter
    have hFirst := length_of_readCommand_line hCommand
    have hMore := length_of_readMessageFrom hAfter
    omega
  · rename_i hCommand _ _
    exact length_of_readCommand_line hCommand

/- Greet a client and serve it. -/
def greetAndServe
    (service : Service)
    (input : Inbound)
    (d : Dialog) : Run Progress := do
  let greeting : Reply :=
    ⟨.serviceReady, service.hostname ++ " spmfilter"⟩
  match ← d.reply greeting with
  | (.error e, d) => return (.error e, d)
  | (.ok (), d) => serve service input d

/-
  Talk to a client until it quits or goes away. Gives the
  result and what the client was sent, the newest first.
-/
def run
    (service : Service)
    (input : Inbound)
    (writes : Option Nat) :
    Run (Except SessionError Unit × List Bytes) := do
  let context ← Context.create service.settings service.hostname
  let d : Dialog :=
    { context := context, outbound := { writes := writes } }
  let (result, d) ← greetAndServe service input d
  let context ← d.context.closeSpool
  match result with
  | .error e => sayOf .warn context.transaction e.text
  | .ok () => pure ()
  sayOf .trace context.transaction "Connection closed"
  return (result, d.outbound.written)

end MailFilter.Smtp
