import MailFilter.Settings.Basic
import MailFilter.Text.Quoted

/-
  This file defines the listing of all settings that is
  logged when they have been read.

  Key definitions include:
    * `Settings.listing`
-/

namespace MailFilter.Settings

------------------------------------------------------------
-- Parts
------------------------------------------------------------

/- List fields under the name of their section. -/
def listFields
    (name : String)
    (fields : List (String × String)) : String :=
  let shown := fields.map fun (key, value) => key ++ ": " ++ value
  name ++ " \x7b " ++ ", ".intercalate shown ++ " \x7d"

/- List items in brackets. -/
def listItems
    (items : List String) : String :=
  "[" ++ ", ".intercalate items ++ "]"

/- List a map in braces. -/
def listMap
    (entries : List (String × String)) : String :=
  let shown := entries.map fun (key, value) =>
    Text.quote key ++ ": " ++ value
  "\x7b" ++ ", ".intercalate shown ++ "\x7d"

/- List a text that may be missing. -/
def listOptional : Option String → String
  | none => "None"
  | some text => "Some(" ++ Text.quote text ++ ")"

/- The listed name of an engine. -/
def Engine.listing : Engine → String
  | .smtpd => "Smtpd"
  | .pipe => "Pipe"

------------------------------------------------------------
-- Sections
------------------------------------------------------------

/- List what holds for both engines. -/
def Global.listing
    (g : Global) : String :=
  listFields "Global" [
    ("engine", g.engine.listing),
    ("debug", toString g.debug),
    ("queue_dir", Text.quote g.queueDir),
    ("modules", listItems (g.modules.map Text.quote)),
    ("module_dir", listOptional g.moduleDir),
    ("module_fail", toString g.moduleFail),
    ("nexthop", listOptional g.nexthop),
    ("nexthop_timeout", toString g.nexthopTimeout),
    ("add_header", toString g.addHeader),
    ("max_size", toString g.maxSize)]

/- List what holds for the SMTP engine. -/
def Smtpd.listing
    (s : Smtpd) : String :=
  listFields "Smtpd" [
    ("bind_ip", s.bindIp.render),
    ("bind_port", toString s.bindPort),
    ("workers", toString s.workers),
    ("timeout", toString s.timeout),
    ("nexthop_fail_code", toString s.nexthopFailCode),
    ("nexthop_fail_msg", Text.quote s.nexthopFailMsg),
    ("codes",
      listMap (s.codes.map fun (key, text) =>
        (key, Text.quote text)))]

/- List the known users. -/
def listUsers
    (users : List (String × Attributes)) : String :=
  listFields "Lookup" [
    ("users",
      listMap (users.map fun (address, attributes) =>
        (address, listMap (attributes.map fun (name, text) =>
          (name, Text.quote text)))))]

/- List all settings. -/
def listing
    (settings : Settings) : String :=
  listFields "Settings" [
    ("global", settings.global.listing),
    ("smtpd", settings.smtpd.listing),
    ("lookup", listUsers settings.users)]

end MailFilter.Settings
