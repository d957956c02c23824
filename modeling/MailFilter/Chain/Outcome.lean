import MailFilter.Delivery.Error
import MailFilter.Transaction

/-
  This file defines how a policy judges a module and how the
  processing of a message ends.

  Key definitions include:
    * `Outcome`
    * `Disposition`
    * `ModuleError`
    * `Policy`
-/

namespace MailFilter

------------------------------------------------------------
-- Outcomes
------------------------------------------------------------

/- What follows from a value other than zero. -/
inductive Outcome where
  /- Stop; the message is neither written nor handed on. -/
  | abort
  /- Stop; the message has been dealt with already. -/
  | stopAccept
  /- Pass over the other modules, then go on as usual. -/
  | carryOn
deriving DecidableEq, Repr

namespace Outcome

/- The name of an outcome. -/
def name : Outcome → String
  | .abort => "Abort"
  | .stopAccept => "StopAccept"
  | .carryOn => "Continue"

/- The number of an outcome. -/
def code : Outcome → Nat
  | .abort => 0
  | .stopAccept => 1
  | .carryOn => 2

end Outcome

/- How the processing of a message ended. -/
inductive Disposition where
  /- All modules ran. -/
  | completed
  /- A module failed and nothing was done. -/
  | aborted
  /- A module failed and the message was taken as it was. -/
  | accepted
  /- A module failed and the other ones were passed over. -/
  | stopped
deriving DecidableEq, Repr

namespace Disposition

/- The name of a disposition. -/
def name : Disposition → String
  | .completed => "completed"
  | .aborted => "aborted"
  | .accepted => "accepted"
  | .stopped => "stopped"

/- The number of a disposition. -/
def code : Disposition → Int
  | .completed => 0
  | .aborted => -1
  | .accepted => 1
  | .stopped => 2

/- The message went on to be written and handed on. -/
def IsProcessed
    (d : Disposition) : Prop :=
  d = .completed ∨ d = .stopped

instance
    (d : Disposition) :
    Decidable (IsProcessed d) := by
  unfold IsProcessed
  infer_instance

end Disposition

------------------------------------------------------------
-- Module errors
------------------------------------------------------------

/- Why a module cannot be used. -/
inductive ModuleError where
  /- Its library cannot be opened. -/
  | load (name reason : String)
  /- Its library has no entry point. -/
  | missingEntry (name reason : String)
deriving DecidableEq, Repr

namespace ModuleError

/- The name of the module. -/
def module : ModuleError → String
  | .load name _ => name
  | .missingEntry name _ => name

/- The text of an error. -/
def text : ModuleError → String
  | .load name reason =>
      "Module " ++ name ++ " failed to load: " ++ reason
  | .missingEntry name reason =>
      "Module " ++ name ++ " has no entry point: " ++ reason

end ModuleError

------------------------------------------------------------
-- Policies
------------------------------------------------------------

/-
  What failures mean to the front end that a message came
  from. The chain itself only knows how to go on or stop.
-/
structure Policy where
  /- A module that cannot be loaded is passed over. -/
  skips : Settings → ModuleError → Bool
  /- What follows from a value other than zero. -/
  judge :
    Settings → Transaction → Int → Outcome × Transaction
  /- The message could not be handed on. -/
  undelivered :
    Settings → Transaction → DeliveryError → Transaction

/-
  The policy that always gives the same outcome, loads all
  modules or none, and does nothing about deliveries.
-/
def Policy.fixed
    (outcome : Outcome) : Policy where
  skips := fun _ _ => false
  judge := fun _ t _ => (outcome, t)
  undelivered := fun _ t _ => t

end MailFilter
