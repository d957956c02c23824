import MailFilter.Spool.Files
import MailFilter.Message.Basic
import MailFilter.Status

/-
  This file defines what can go wrong with spool files.

  Key definitions include:
    * `SpoolError`
    * `SpoolError.text`
    * `LoadError`
    * `LoadError.text`
-/

namespace MailFilter

/- The step that failed, on which path, and why. -/
structure SpoolError where
  step : Step
  path : Path
  fault : Fault
deriving DecidableEq, Repr

namespace SpoolError

/- The text of an error. -/
def text
    (error : SpoolError) : String :=
  "Unable to " ++ error.step.name ++ " spool file " ++
    error.path.render ++ ": " ++ error.fault.text

/-
  What an error is to an SMTP client, namely a failure for
  now.
-/
def status
    (_ : SpoolError) : Status :=
  .actionUnavailable

end SpoolError

/- Why a message cannot be loaded from its spool file. -/
inductive LoadError where
  | spool (error : SpoolError)
  | parse (error : Message.ParseError)
deriving DecidableEq, Repr

/- The text of an error. -/
def LoadError.text : LoadError → String
  | .spool error => error.text
  | .parse error => "Unable to parse message: " ++ error.text

end MailFilter
