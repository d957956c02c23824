import MailFilter.Settings.Basic

/-
  This file defines the replies sent to an SMTP client.

  A reply is one line. What answers a command is one reply,
  except that the extended greeting is three lines.

  Key definitions include:
    * `Reply`
    * `Reply.configured`
    * `Reply.forCode`
    * `Reply.render`
-/

namespace MailFilter

/- A code and a text. -/
structure Reply where
  status : Status
  text : String
deriving DecidableEq, Repr

namespace Reply

/-
  The reply for a status, with the text that the settings
  have for it, or else its default text.
-/
def configured
    (settings : Settings)
    (status : Status) : Reply :=
  ⟨status, (settings.replyText status).getD status.defaultText⟩

/-
  The reply for a code that a module or the settings chose.

  The text is `text`, or else the one in the settings, or
  else the one written for the code. A code without a text,
  and a number that is no reply code, gives the reply for a
  local error.
-/
def forCode
    (settings : Settings)
    (code : Nat)
    (text : Option String) : Reply :=
  let status := Status.ofCode code
  if status.IsReplyCode then
    match text <|> settings.replyText status with
    | some chosen => ⟨status, chosen⟩
    | none =>
        if status.hasOwnText then ⟨status, status.defaultText⟩
        else configured settings .actionUnavailable
  else
    configured settings .actionUnavailable

/- The line of a reply, without its line ending. -/
def render
    (reply : Reply) : String :=
  reply.status.render ++ " " ++ reply.text

end Reply

end MailFilter
