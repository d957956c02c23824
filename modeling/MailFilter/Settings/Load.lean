import MailFilter.Settings.Decode
import MailFilter.Settings.Listing
import MailFilter.World

/-
  This file defines how settings are read from a file.

  Key definitions include:
    * `Settings.LoadError`
    * `Settings.parse`
    * `Settings.load`
-/

namespace MailFilter.Settings

open World

/- Why settings cannot be read. -/
inductive LoadError where
  | read (path : Path) (fault : Fault)
  /- The text holds no settings. -/
  | parse
deriving DecidableEq, Repr

/- The text of an error. -/
def LoadError.text : LoadError → String
  | .read path fault =>
      "Failed to read config from " ++ path.render ++ ": " ++
        fault.text
  | .parse => "Invalid configuration"

/- Read settings from a text, and warn of unknown keys. -/
def parse
    (text : String) : Run (Except LoadError Settings) := do
  match parse? text with
  | none => return .error .parse
  | some (settings, unknown) =>
      unknown.forM fun key =>
        say .warn ("Ignoring unknown smtpd setting " ++ key)
      return .ok settings

/- Read settings from a file. -/
def load
    (path : Path) : Run (Except LoadError Settings) := do
  match (← get).files.read path with
  | .error fault => return .error (.read path fault)
  | .ok content =>
      match Utf8.decode? content with
      | none => return .error (.read path .invalidText)
      | some text =>
          match ← parse text with
          | .error e => return .error e
          | .ok settings =>
              say .debug
                ("Loaded configuration from " ++ path.render ++
                  ": " ++ settings.listing)
              return .ok settings

end MailFilter.Settings
