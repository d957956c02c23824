import MailFilter.Lookup
import MailFilter.Message.Basic
import MailFilter.Reply
import MailFilter.Spool.Path

/-
  This file defines what is known about one message while it
  passes through the filter.

  Key definitions include:
    * `Envelope`
    * `Transaction`
-/

namespace MailFilter

/-
  Who a message is from, who it is for, and where it is kept.
  The sender may be the null sender.
-/
structure Envelope where
  sender : Option String := none
  recipients : List String := []
  messageFile : Path := .empty
  message : Option Message := none
deriving DecidableEq, Repr

/- The state of the filter for one message. -/
structure Transaction where
  /- Tells transactions apart in the log. -/
  id : Nat
  envelope : Envelope := {}
  /- The text that a module wants in the final reply. -/
  responseMsg : Option String := none
  /- The answers to the look-ups so far, by address. -/
  users : List (String × Option UserRecord) := []
  helo : Option String := none
  xforwardAddr : Option String := none
  /- The reply that was decided on for the client. -/
  reply : Option Reply := none
deriving DecidableEq, Repr

namespace Transaction

/- The message of a transaction, if it has one. -/
def message
    (t : Transaction) : Option Message :=
  t.envelope.message

/- Attach a message, or none. -/
def withMessage
    (t : Transaction)
    (message : Option Message) : Transaction :=
  { t with envelope := { t.envelope with message := message } }

/- Change the message, if there is one. -/
def mapMessage
    (t : Transaction)
    (change : Message → Message) : Transaction :=
  t.withMessage (t.message.map change)

end Transaction

end MailFilter
