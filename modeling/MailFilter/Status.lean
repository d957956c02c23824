/-
  This file defines the reply codes of SMTP that the filter
  knows by name, and the text it has for each of them.

  Key definitions include:
    * `Status`
    * `Status.ofCode`
    * `Status.code`
    * `Status.IsReplyCode`
    * `Status.hasOwnText`
    * `Status.defaultText`
-/

namespace MailFilter

/- A reply code. -/
inductive Status where
  | serviceReady
  | goodBye
  | ok
  | startMailInput
  | unavailable
  | actionUnavailable
  | commandSyntax
  | syntaxError
  | commandNotRecognized
  | invalidCommandSequence
  | exceededStorage
  | transactionFailed
  | unknown (code : Nat)
deriving DecidableEq, Repr

namespace Status

------------------------------------------------------------
-- Codes
------------------------------------------------------------

/- The status with a given code. -/
def ofCode
    (code : Nat) : Status :=
  match code with
  | 220 => .serviceReady
  | 221 => .goodBye
  | 250 => .ok
  | 354 => .startMailInput
  | 421 => .unavailable
  | 451 => .actionUnavailable
  | 500 => .commandSyntax
  | 501 => .syntaxError
  | 502 => .commandNotRecognized
  | 503 => .invalidCommandSequence
  | 552 => .exceededStorage
  | 554 => .transactionFailed
  | other => .unknown other

/- The number of a status. -/
def code : Status → Nat
  | .serviceReady => 220
  | .goodBye => 221
  | .ok => 250
  | .startMailInput => 354
  | .unavailable => 421
  | .actionUnavailable => 451
  | .commandSyntax => 500
  | .syntaxError => 501
  | .commandNotRecognized => 502
  | .invalidCommandSequence => 503
  | .exceededStorage => 552
  | .transactionFailed => 554
  | .unknown code => code

/- The code is one that an SMTP reply can carry. -/
def IsReplyCode
    (status : Status) : Prop :=
  200 ≤ status.code ∧ status.code ≤ 599

instance
    (status : Status) :
    Decidable (IsReplyCode status) := by
  unfold IsReplyCode
  infer_instance

------------------------------------------------------------
-- Texts
------------------------------------------------------------

/-
  The default text was written for this status, and not
  borrowed from that for a local error.
-/
def hasOwnText : Status → Bool
  | .goodBye
  | .ok
  | .startMailInput
  | .unavailable
  | .actionUnavailable
  | .commandNotRecognized
  | .exceededStorage => true
  | _ => false

/- The text of a local error. -/
def localError : String :=
  "Requested action aborted: local error in processing"

/- The text sent when nothing more specific is known. -/
def defaultText : Status → String
  | .goodBye => "Goodbye. Please recommend us to others!"
  | .ok => "OK"
  | .startMailInput => "End data with <CR><LF>.<CR><LF>"
  | .unavailable => "Error: timeout exceeded"
  | .commandNotRecognized => "Error: command not recognized"
  | _ => localError

/- The name of a status. -/
def name : Status → String
  | .serviceReady => "ServiceReady"
  | .goodBye => "GoodBye"
  | .ok => "Ok"
  | .startMailInput => "StartMailInput"
  | .unavailable => "Unavailable"
  | .actionUnavailable => "ActionUnavailable"
  | .commandSyntax => "CommandSyntax"
  | .syntaxError => "SyntaxError"
  | .commandNotRecognized => "CommandNotRecognized"
  | .invalidCommandSequence => "InvalidCommandSequence"
  | .exceededStorage => "ExceededStorage"
  | .transactionFailed => "TransactionFailed"
  | .unknown code => "Unknown(" ++ toString code ++ ")"

/- A status is written as its code. -/
def render
    (status : Status) : String :=
  toString status.code

end Status

end MailFilter
