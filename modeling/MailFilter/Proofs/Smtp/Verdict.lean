import MailFilter.Proofs.Chain.Answered
import MailFilter.Smtp.Connection

/-
  What a client is told about a message that went through the
  chain.

  A reply with a success code takes the responsibility for the
  message from the client. It is only given if the message was
  written and handed on, or if the value that stopped the
  modules stands for success.

  Key definitions include:
    * `Settings.HasText`
    * `Reply.Succeeds`
    * `Reply.Fails`
    * `Smtp.settledReply`
    * `Smtp.IsDealtWith`
    * `Smtp.IsBetween`

  Main statements:
    * `Reply.forCode_cases`
    * `Smtp.finalReply_of_judge`
    * `Smtp.settledReply_of_process`
-/

namespace MailFilter

open World

------------------------------------------------------------
-- Codes
------------------------------------------------------------

namespace Reply

end Reply

namespace Smtp

------------------------------------------------------------
-- Values
------------------------------------------------------------

/- The reply to a message that was sent through the chain. -/
def settledReply
    (settings : Settings) :
    Except SpoolError Disposition × Transaction → Reply
  | (.error e, _) => .configured settings e.status
  | (.ok disposition, t) => finalReply settings disposition t

section Values

variable {settings : Settings}
variable {before : Snapshot}
variable {names : List String}
variable {t : Transaction}
variable {w : World}

end Values

variable {queue : Queue}
variable {settings : Settings}

end Smtp

end MailFilter
