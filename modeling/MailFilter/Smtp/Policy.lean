import MailFilter.Chain.Outcome
import MailFilter.Smtp.Answer

/-
  This file defines what failures mean to an SMTP client.

  A reply that is decided on here is kept in the transaction
  and is what the client gets for its message.

  Key definitions include:
    * `Smtp.policy`
-/

namespace MailFilter.Smtp

/- Decide on the reply that a client gets. -/
def decide
    (t : Transaction)
    (reply : Reply) : Transaction :=
  { t with reply := some reply }

/- What a failed module means by the settings. -/
def judgeFailure
    (settings : Settings)
    (t : Transaction) : Outcome × Transaction :=
  match settings.global.moduleFail with
  | 1 => (.stopAccept, t)
  | 2 =>
      (.abort, decide t (.configured settings .exceededStorage))
  | 3 =>
      (.abort,
        decide t (.configured settings .actionUnavailable))
  | _ => (.abort, t)

/- What a value other than zero means. -/
def judge
    (settings : Settings)
    (t : Transaction)
    (value : Int) : Outcome × Transaction :=
  if value = -1 then judgeFailure settings t
  else if value = 1 then
    (.stopAccept,
      decide t ⟨.ok, t.responseMsg.getD accepted⟩)
  else if value = 2 then (.carryOn, t)
  else
    -- A number below zero is no code, like zero.
    (.stopAccept,
      decide t (.forCode settings value.toNat t.responseMsg))

/- The policy of the SMTP engine. -/
def policy : Policy where
  skips := fun settings _ => settings.global.moduleFail == 1
  judge := judge
  undelivered := fun settings t _ =>
    decide t
      (.forCode settings settings.smtpd.nexthopFailCode
        (some settings.smtpd.nexthopFailMsg))

end MailFilter.Smtp
