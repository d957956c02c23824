import MailFilter.Reply

/-
  This file defines what an SMTP client is told in answer to
  a command.

  Key definitions include:
    * `Smtp.Answer`
    * `Smtp.Answer.lines`
    * `Smtp.Refusal`
-/

namespace MailFilter.Smtp

/- The answer to a command. -/
inductive Answer where
  | single (reply : Reply)
  /- The extended greeting, which names what is offered. -/
  | extended (hostname : String) (maxSize : Nat)
deriving DecidableEq, Repr

/- The lines of an answer, without their line endings. -/
def Answer.lines : Answer → List String
  | .single reply => [reply.render]
  | .extended hostname maxSize =>
      let ok := Status.ok.render
      [ ok ++ "-" ++ hostname,
        ok ++ "-XFORWARD ADDR",
        ok ++ " SIZE " ++ toString maxSize ]

/- The text that tells that a message was taken. -/
def accepted : String :=
  "OK message accepted"

------------------------------------------------------------
-- Refused commands
------------------------------------------------------------

namespace Refusal

def emptyHelo : Reply :=
  ⟨.syntaxError, "Syntax: HELO hostname"⟩

def emptyXforward : Reply :=
  ⟨.syntaxError, "Syntax: XFORWARD attribute=value..."⟩

def emptyMailFrom : Reply :=
  ⟨.syntaxError, "Syntax: MAIL FROM:<address>"⟩

def emptyRcptTo : Reply :=
  ⟨.syntaxError, "Syntax: RCPT TO:<address>"⟩

def nestedMail : Reply :=
  ⟨.invalidCommandSequence, "Error: nested MAIL command"⟩

def needMail : Reply :=
  ⟨.invalidCommandSequence, "Error: need MAIL command"⟩

def needRcpt : Reply :=
  ⟨.invalidCommandSequence, "Error: need RCPT command"⟩

def noRecipients : Reply :=
  ⟨.transactionFailed, "Error: no valid recipients"⟩

def unrecognized : Reply :=
  ⟨.commandNotRecognized, "Error: command not recognized"⟩

def lineTooLong : Reply :=
  ⟨.commandSyntax, "Line too long"⟩

end Refusal

end MailFilter.Smtp
