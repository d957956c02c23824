import MailFilter.Net.Address
import MailFilter.Status

/-
  This file defines the settings of the filter and their
  defaults.

  Key definitions include:
    * `Settings.Engine`
    * `Settings.Global`
    * `Settings.Smtpd`
    * `Settings`
    * `Settings.replyText`
-/

namespace MailFilter

namespace Settings

------------------------------------------------------------
-- Sections
------------------------------------------------------------

/- The front end that feeds messages into the chain. -/
inductive Engine where
  | smtpd
  | pipe
deriving DecidableEq, Repr

/- What holds for both engines. -/
structure Global where
  engine : Engine := .smtpd
  debug : Bool := false
  /- Where messages are kept while they are processed. -/
  queueDir : String := "/var/spool/spmfilter"
  /- The names of the native modules, in order. -/
  modules : List String := []
  /- Where native modules are loaded from. -/
  moduleDir : Option String := none
  /-
    What a failed module means: 1 carries on, 2 refuses for
    good, 3 refuses for now.
  -/
  moduleFail : Nat := 3
  nexthop : Option String := none
  /- How long a relay may take to answer, in seconds. -/
  nexthopTimeout : Nat := 30
  /- Add a header that lists the modules that ran. -/
  addHeader : Bool := false
  /- The largest message in bytes, where 0 is no limit. -/
  maxSize : Nat := 0
deriving DecidableEq, Repr

/- What holds for the SMTP engine. -/
structure Smtpd where
  bindIp : Net.Address := .loopback
  bindPort : Nat := 10025
  workers : Nat := 4
  /- How long a client may stay idle, in seconds. -/
  timeout : Nat := 300
  nexthopFailCode : Nat := 451
  nexthopFailMsg : String := Status.localError
  /- Texts by reply code, in the order of the keys. -/
  codes : List (String × String) := []
deriving DecidableEq, Repr

/- The attributes of a user, in the order of their names. -/
abbrev Attributes :=
  List (String × String)

end Settings

open Settings in
/- The settings of the filter. -/
structure Settings where
  global : Global := {}
  smtpd : Smtpd := {}
  /- The known users by address, in the order of addresses. -/
  users : List (String × Attributes) := []
deriving DecidableEq, Repr

namespace Settings

------------------------------------------------------------
-- Views
------------------------------------------------------------

/- The text that the settings have for a status. -/
def replyText
    (settings : Settings)
    (status : Status) : Option String :=
  settings.smtpd.codes.lookup (toString status.code)

/- The address that the SMTP engine listens on. -/
def Smtpd.socket
    (smtpd : Smtpd) : String :=
  smtpd.bindIp.renderSocket smtpd.bindPort

/- The name of an engine. -/
def Engine.name : Engine → String
  | .smtpd => "smtpd"
  | .pipe => "pipe"

end Settings

end MailFilter
