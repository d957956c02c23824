import MailFilter.Spool.Error

/-
  This file defines what can go wrong when a message is
  handed on.

  Key definitions include:
    * `DeliveryError`
    * `DeliveryError.text`
    * `DeliveryError.IsRejection`
-/

namespace MailFilter

/- Why a message was not handed on. -/
inductive DeliveryError where
  /- The message could not be copied. -/
  | file (path : Path) (fault : Fault)
  /- The relay could not be talked to. -/
  | connection (address : String) (fault : Fault)
  /- The relay sent something that is no reply. -/
  | malformedReply (text : String)
  /- The relay refused the message. -/
  | rejected (code : Nat) (message : String)
deriving DecidableEq, Repr

namespace DeliveryError

/- The text of an error. -/
def text : DeliveryError → String
  | .file path fault =>
      "Unable to copy message to " ++ path.render ++ ": " ++
        fault.text
  | .connection address fault =>
      "Relay connection to " ++ address ++ " failed: " ++
        fault.text
  | .malformedReply text =>
      "Malformed reply from relay: " ++ text
  | .rejected code message =>
      "Relay rejected message: " ++ toString code ++ " " ++
        message

/- The relay itself refused the message. -/
def IsRejection : DeliveryError → Prop
  | .rejected _ _ => True
  | _ => False

instance
    (error : DeliveryError) :
    Decidable (IsRejection error) := by
  cases error <;> unfold IsRejection <;> infer_instance

end DeliveryError

end MailFilter
