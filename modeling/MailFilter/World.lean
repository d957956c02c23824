import MailFilter.Chain.Outcome
import MailFilter.Log
import MailFilter.Relay.Scripted
import MailFilter.Spool.Files
import MailFilter.Stamp

/-
  This file defines all that the filter acts on besides the
  message at hand: files, relays, the log, and a journal of
  whom the chain asked what.

  Key definitions include:
    * `Note`
    * `Network`
    * `World`
    * `Run`
    * `World.emit`
    * `World.record`
-/

namespace MailFilter

------------------------------------------------------------
-- Parts
------------------------------------------------------------

/- What the chain asked one of its partners. -/
inductive Note where
  /-
    A module was invoked, with the transaction and the
    content of the spool file as they were then.
  -/
  | invoked
      (name : String)
      (native : Bool)
      (transaction : Transaction)
      (spool : Option Bytes)
  /- The policy judged a value. -/
  | judged (value : Int) (outcome : Outcome)
  /- The policy was told that a delivery failed. -/
  | undelivered (error : DeliveryError)
  /- The policy was asked about a module. -/
  | unloadable (error : ModuleError) (skipped : Bool)
  /- The look-up backend was asked about an address. -/
  | asked (address : String)
deriving DecidableEq

/-
  The relays that can be reached, each by host and port, with
  the script it answers by, and what a connection to any
  other host or port meets.
-/
structure Network where
  relays : List ((String × Nat) × List Bytes) := []
  refusal : Fault := .connectionRefused
  /- What each connection was sent, with the newest first. -/
  transcripts : List Bytes := []

/-
  The world of the filter. The log and the journal have the
  newest first.
-/
structure World where
  files : Files := {}
  network : Network := {}
  log : List Log.Event := []
  journal : List Note := []
  /- The number of transactions so far. -/
  transactions : Nat := 0
  stamp : Stamp := ⟨"", ""⟩
  /- It can be written in the header of a message. -/
  isPlain_stamp : stamp.IsPlain := by
    first
    | exact Stamp.isPlain_empty
    | decide
  /- The name of this machine. -/
  machine : String := "localhost"

/- A computation that acts on the world. -/
abbrev Run :=
  StateM World

namespace World

------------------------------------------------------------
-- Records
------------------------------------------------------------

/- Log an event. -/
def emit
    (event : Log.Event) : Run Unit :=
  modify fun w => { w with log := event :: w.log }

/- Log several events, of which the newest comes first. -/
def emitAll
    (events : List Log.Event) : Run Unit :=
  modify fun w => { w with log := events ++ w.log }

/- Log an event of the filter itself. -/
def say
    (level : Log.Level)
    (text : String) : Run Unit :=
  emit (.internal level text)

/- Log an event of the filter in a transaction. -/
def sayOf
    (level : Log.Level)
    (t : Transaction)
    (text : String) : Run Unit :=
  emit (.about level t.id text)

/- Make a note in the journal. -/
def record
    (note : Note) : Run Unit :=
  modify fun w => { w with journal := note :: w.journal }

/- Change the files. -/
def setFiles
    (files : Files) : Run Unit :=
  modify fun w => { w with files := files }

/- Start a new transaction. -/
def newTransaction : Run Transaction :=
  modifyGet fun w =>
    ({ id := w.transactions },
      { w with transactions := w.transactions + 1 })

end World

end MailFilter
