import MailFilter.Chain.Queue

/-
  This file defines the pipe engine: one message on standard
  input, processed once, with an exit status as the result.

  Key definitions include:
    * `Pipe.policy`
    * `Pipe.exitCode`
    * `Pipe.Input`
    * `Pipe.run`
-/

namespace MailFilter.Pipe

open World

------------------------------------------------------------
-- Policy
------------------------------------------------------------

/-
  What a value other than zero means. There is nobody to
  reply to, so it only decides whether the message goes on.
-/
def judge
    (settings : Settings)
    (t : Transaction)
    (value : Int) : Outcome × Transaction :=
  if value = -1 ∧ settings.global.moduleFail = 1 then
    (.stopAccept, t)
  else if value = 1 then (.carryOn, t)
  else (.abort, t)

/- The policy of the pipe engine. -/
def policy : Policy where
  skips := fun settings _ => settings.global.moduleFail == 1
  judge := judge
  undelivered := fun _ t _ => t

/- The exit status for a disposition. -/
def exitCode
    (disposition : Disposition) : Int :=
  if disposition.IsProcessed then 0 else 1

------------------------------------------------------------
-- Running
------------------------------------------------------------

/-
  What standard input holds, and how reading it fails after
  that, if it does.
-/
structure Input where
  data : Bytes
  failure : Option Fault := none
deriving DecidableEq

/- Write the input to a spool file. Gives its size. -/
def spoolInput
    (path : Path)
    (input : Input) : Run (Except SpoolError Nat) := do
  match input.failure with
  | some fault => return .error ⟨.write, path, fault⟩
  | none =>
      match ← Spool.write path input.data with
      | .error e => return .error e
      | .ok () => return .ok input.data.length

/- Take the envelope from the message itself. -/
def address
    (t : Transaction)
    (message : Message) : Transaction :=
  { t with
    envelope := { t.envelope with
      sender := message.sender
      recipients := message.recipients
      message := some message } }

/- Spool the input and send it through the chain. -/
def processInput
    (settings : Settings)
    (queue : Queue)
    (input : Input)
    (t : Transaction) :
    Run (Except LoadError Disposition × Transaction) := do
  let path := t.envelope.messageFile
  match ← spoolInput path input with
  | .error e => return (.error (.spool e), t)
  | .ok size =>
      sayOf .debug t
        ("Spooled " ++ toString size ++ " bytes to " ++
          path.render)
      match ← Spool.load path with
      | .error e => return (.error e, t)
      | .ok message =>
          let (result, t) ←
            queue.process settings (address t message)
          match result with
          | .error e => return (.error (.spool e), t)
          | .ok disposition => return (.ok disposition, t)

/-
  Process the message on standard input. Its spool file is
  removed afterwards, whatever came of it.
-/
def run
    (settings : Settings)
    (queue : Queue)
    (input : Input) : Run (Except LoadError Disposition) := do
  match ← Spool.create settings.global.queueDir with
  | .error e => return .error (.spool e)
  | .ok path =>
      let t ← newTransaction
      let t : Transaction :=
        { t with envelope := { messageFile := path } }
      let (result, t) ← processInput settings queue input t
      Spool.remove path
      match result with
      | .ok disposition =>
          sayOf .info t ("Processing " ++ disposition.name)
      | .error e => sayOf .error t e.text
      return result

end MailFilter.Pipe
