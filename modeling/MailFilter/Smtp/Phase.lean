import MailFilter.Smtp.Answer
import MailFilter.Smtp.Command
import MailFilter.Spool.Basic

/-
  This file defines the state machine of an SMTP dialogue.

  Every command gets one answer. A command that is refused
  leaves everything as it was.

  Key definitions include:
    * `Smtp.Phase`
    * `Smtp.Context`
    * `Smtp.Context.reset`
    * `Smtp.Context.openSpool`
    * `Smtp.Phase.step`
-/

namespace MailFilter.Smtp

open World

------------------------------------------------------------
-- Phases
------------------------------------------------------------

/- What the client has done so far. -/
inductive Phase where
  | init
  | helo
  | xfwd
  | mail
  | rcpt
  | data
  | quit
deriving DecidableEq, Repr

/- The name of a phase. -/
def Phase.name : Phase → String
  | .init => "INIT"
  | .helo => "HELO"
  | .xfwd => "XFWD"
  | .mail => "MAIL"
  | .rcpt => "RCPT"
  | .data => "DATA"
  | .quit => "QUIT"

/- The phase with a name. -/
def Phase.ofName? : String → Option Phase
  | "INIT" => some .init
  | "HELO" => some .helo
  | "XFWD" => some .xfwd
  | "MAIL" => some .mail
  | "RCPT" => some .rcpt
  | "DATA" => some .data
  | "QUIT" => some .quit
  | _ => none

------------------------------------------------------------
-- Contexts
------------------------------------------------------------

/-
  What a command is carried out on: the transaction, and
  whether a spool file was opened for its message.
-/
structure Context where
  settings : Settings
  hostname : String
  transaction : Transaction
  spoolOpen : Bool := false
deriving DecidableEq, Repr

namespace Context

/- Start a dialogue. -/
def create
    (settings : Settings)
    (hostname : String) : Run Context := do
  let t ← newTransaction
  return ⟨settings, hostname, t, false⟩

/- Change the envelope. -/
def mapEnvelope
    (context : Context)
    (change : Envelope → Envelope) : Context :=
  let t := context.transaction
  { context with
    transaction := { t with envelope := change t.envelope } }

/- Close and remove the spool file, if one is open. -/
def closeSpool
    (context : Context) : Run Context := do
  if context.spoolOpen then
    Spool.remove context.transaction.envelope.messageFile
  return { context with spoolOpen := false }

/- Throw away the transaction and start a new one. -/
def reset
    (context : Context) : Run Context := do
  let context ← context.closeSpool
  sayOf .trace context.transaction "Session reset"
  let t ← newTransaction
  return { context with transaction := t }

/- Remember what the client calls itself. -/
def greet
    (context : Context)
    (host : String) : Context :=
  { context with
    transaction := { context.transaction with helo := some host } }

/- The configured reply for a status. -/
def configured
    (context : Context)
    (status : Status) : Answer :=
  .single (Reply.configured context.settings status)

/-
  Open a spool file for the message. If that fails the
  context is left as it was.
-/
def openSpool
    (context : Context) : Run (Bool × Context × Answer) := do
  match ← Spool.create context.settings.global.queueDir with
  | .ok path =>
      sayOf .trace context.transaction
        ("Using spool file " ++ path.render)
      let context :=
        context.mapEnvelope fun e => { e with messageFile := path }
      return (true, { context with spoolOpen := true },
        context.configured .startMailInput)
  | .error e =>
      sayOf .error context.transaction e.text
      return (false, context, context.configured e.status)

end Context

------------------------------------------------------------
-- Steps
------------------------------------------------------------

namespace Phase

/-
  Greet a client. In the first phase the transaction is kept,
  in any other one it is thrown away.
-/
def welcome
    (phase : Phase)
    (host : String)
    (context : Context)
    (answer : Answer) : Run (Phase × Context × Answer) := do
  if host.isEmpty then
    return (phase, context, .single Refusal.emptyHelo)
  else if phase = .init then
    return (.helo, context.greet host, answer)
  else
    let context ← context.reset
    return (.helo, context.greet host, answer)

/- Take the sender of a new message. -/
def takeSender
    (phase : Phase)
    (argument : String)
    (context : Context) : Phase × Context × Answer :=
  if phase = .mail then
    (.mail, context, .single Refusal.nestedMail)
  else if argument.isEmpty then
    (phase, context, .single Refusal.emptyMailFrom)
  else
    let box := mailbox argument
    let sender := if box.isEmpty then none else some box
    (.mail,
      context.mapEnvelope fun e => { e with sender := sender },
      context.configured .ok)

/- Take a recipient of the message. -/
def takeRecipient
    (phase : Phase)
    (argument : String)
    (context : Context) : Phase × Context × Answer :=
  if phase = .mail ∨ phase = .rcpt then
    let box := mailbox argument
    if box.isEmpty then
      (phase, context, .single Refusal.emptyRcptTo)
    else
      (.rcpt,
        context.mapEnvelope fun e =>
          { e with recipients := e.recipients ++ [box] },
        context.configured .ok)
  else
    (phase, context, .single Refusal.needMail)

/- Get ready for the message data. -/
def takeData
    (phase : Phase)
    (context : Context) : Run (Phase × Context × Answer) := do
  match phase with
  | .mail => return (.mail, context, .single Refusal.noRecipients)
  | .rcpt =>
      let (opened, context, answer) ← context.openSpool
      return (if opened then .data else .rcpt, context, answer)
  | phase => return (phase, context, .single Refusal.needRcpt)

/- Carry out a command. -/
def step
    (phase : Phase)
    (command : Command)
    (context : Context) : Run (Phase × Context × Answer) := do
  match command with
  | .quit => return (.quit, context, context.configured .goodBye)
  | .helo host =>
      phase.welcome host context
        (.single ⟨.ok, context.hostname⟩)
  | .ehlo host =>
      phase.welcome host context
        (.extended context.hostname
          context.settings.global.maxSize)
  | .xforward none =>
      return (phase, context, .single Refusal.emptyXforward)
  | .xforward (some address) =>
      let t :=
        { context.transaction with xforwardAddr := some address }
      return (.xfwd, { context with transaction := t },
        context.configured .ok)
  | .mailFrom argument =>
      return phase.takeSender argument context
  | .rcptTo argument =>
      return phase.takeRecipient argument context
  | .data => phase.takeData context
  | .rset =>
      let context ← context.reset
      return (.init, context, context.configured .ok)
  | .noop => return (phase, context, context.configured .ok)
  | .invalid _ =>
      return (phase, context, .single Refusal.unrecognized)

end Phase

end MailFilter.Smtp
