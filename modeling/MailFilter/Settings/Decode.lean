import MailFilter.Settings.Basic
import MailFilter.Toml.Document

/-
  This file defines how settings are taken from a TOML
  document.

  A section is a table of named fields. Fields that are
  missing have their defaults, and names that are unknown are
  passed over, except that every unknown name of the SMTP
  section is a key of the reply texts and needs a string.

  The sections that allow no such keys may also be given as
  arrays of their fields in order. A date stands for a table
  whose one entry holds its text under a reserved name.

  Key definitions include:
    * `Settings.Decoder`
    * `Settings.decodeGlobal?`
    * `Settings.decodeSmtpd?`
    * `Settings.decodeUsers?`
    * `Settings.IsTextKey`
    * `Settings.parse?`
-/

namespace MailFilter.Settings

open Toml (Value Entries)

/- How a value is taken as something else. -/
abbrev Decoder (α : Type) :=
  Value → Option α

------------------------------------------------------------
-- Values
------------------------------------------------------------

/- Take a string. -/
def text? : Decoder String
  | .string s => some s
  | _ => none

/- Take a truth value. -/
def flag? : Decoder Bool
  | .boolean b => some b
  | _ => none

/- Take a natural number of so many bits. -/
def number?
    (bits : Nat) : Decoder Nat
  | .integer n =>
      if 0 ≤ n && n.toNat < Nat.pow 2 bits then some n.toNat
      else none
  | _ => none

/- Take an internet address. -/
def address? : Decoder Net.Address
  | .string s => Net.Address.read? s
  | _ => none

/- Take a list of strings. -/
def texts? : Decoder (List String)
  | .array items => items.mapM text?
  | _ => none

/- The value holds nothing. -/
def isEmpty : Value → Bool
  | .array items => items.isEmpty
  | .table _ entries => entries.isEmpty
  | _ => false

/- The engine with a name. -/
def Engine.ofName? : String → Option Engine
  | "smtpd" => some .smtpd
  | "pipe" => some .pipe
  | _ => none

/-
  Take an engine: its name, or a table in which an empty
  value stands under the name.
-/
def engine? : Decoder Engine
  | .string s => Engine.ofName? s
  | .table _ [(name, value)] =>
      if isEmpty value then Engine.ofName? name else none
  | _ => none

/- The entries of a table, or of what stands for one. -/
def entries? : Decoder Entries
  | .table _ entries => some entries
  | .datetime s =>
      some [("$__toml_private_datetime", .string s)]
  | _ => none

------------------------------------------------------------
-- Maps
------------------------------------------------------------

/- Bring entries into the order of their keys. -/
def sortByKey
    {α : Type}
    (entries : List (String × α)) : List (String × α) :=
  entries.mergeSort fun a b => !(b.1 < a.1)

/- Take a map with values of one kind. -/
def map?
    {α : Type}
    (decode : Decoder α) : Decoder (List (String × α)) :=
  fun value => do
    let entries ← entries? value
    let decoded ← entries.mapM fun (key, value) => do
      return (key, ← decode value)
    return sortByKey decoded

/- Take the attributes of a user. -/
def attributes? : Decoder Attributes :=
  map? text?

/- Take the known users. -/
def users? : Decoder (List (String × Attributes)) :=
  map? attributes?

------------------------------------------------------------
-- Sections
------------------------------------------------------------

/-
  The value of a field, given the name under which or else
  the place at which a section may have it.
-/
abbrev Section :=
  String → Nat → Option Value

/- A section given as a table or as an array. -/
def section? : Decoder Section
  | .array items => some fun _ place => items[place]?
  | .tables items =>
      some fun _ place =>
        items[place]?.map (.table .header ·)
  | value => do
      let entries ← entries? value
      return fun name _ => entries.lookup name

/- A field of a section, or its default. -/
def field?
    {α : Type}
    (fields : Section)
    (name : String)
    (place : Nat)
    (decode : Decoder α)
    (default : α) : Option α :=
  match fields name place with
  | some value => decode value
  | none => some default

/- Take a value that is present. -/
def present?
    {α : Type}
    (decode : Decoder α) : Decoder (Option α) :=
  fun value => (decode value).map some

/- Take what holds for both engines. -/
def decodeGlobal? : Decoder Global :=
  fun value => do
    let s ← section? value
    let d : Global := {}
    return {
      engine := ← field? s "engine" 0 engine? d.engine
      debug := ← field? s "debug" 1 flag? d.debug
      queueDir := ← field? s "queue_dir" 2 text? d.queueDir
      modules := ← field? s "modules" 3 texts? d.modules
      moduleDir :=
        ← field? s "module_dir" 4 (present? text?) d.moduleDir
      moduleFail :=
        ← field? s "module_fail" 5 (number? 8) d.moduleFail
      nexthop :=
        ← field? s "nexthop" 6 (present? text?) d.nexthop
      nexthopTimeout :=
        ← field? s "nexthop_timeout" 7 (number? 64)
          d.nexthopTimeout
      addHeader := ← field? s "add_header" 8 flag? d.addHeader
      maxSize := ← field? s "max_size" 9 (number? 64) d.maxSize
    }

/- The names of the fields of the SMTP section. -/
def smtpdFields : List String :=
  ["bind_ip", "bind_port", "workers", "timeout",
   "nexthop_fail_code", "nexthop_fail_msg"]

/- Take what holds for the SMTP engine. -/
def decodeSmtpd? : Decoder Smtpd :=
  fun value => do
    let entries ← entries? value
    let s : Section := fun name _ => entries.lookup name
    let d : Smtpd := {}
    let others :=
      entries.filter fun entry =>
        !smtpdFields.contains entry.1
    let codes ← others.mapM fun (key, value) => do
      return (key, ← text? value)
    return {
      bindIp := ← field? s "bind_ip" 0 address? d.bindIp
      bindPort :=
        ← field? s "bind_port" 0 (number? 16) d.bindPort
      workers := ← field? s "workers" 0 (number? 64) d.workers
      timeout := ← field? s "timeout" 0 (number? 64) d.timeout
      nexthopFailCode :=
        ← field? s "nexthop_fail_code" 0 (number? 32)
          d.nexthopFailCode
      nexthopFailMsg :=
        ← field? s "nexthop_fail_msg" 0 text? d.nexthopFailMsg
      codes := sortByKey codes
    }

/- Take the section of the known users. -/
def decodeLookup? : Decoder (List (String × Attributes)) :=
  fun value => do
    let s ← section? value
    field? s "users" 0 users? []

------------------------------------------------------------
-- Documents
------------------------------------------------------------

/- The settings of a document, with all reply texts. -/
def decode?
    (root : Entries) : Option Settings := do
  let s : Section := fun name _ => root.lookup name
  return {
    global := ← field? s "global" 0 decodeGlobal? {}
    smtpd := ← field? s "smtpd" 0 decodeSmtpd? {}
    users := ← field? s "lookup" 0 decodeLookup? []
  }

/-
  The key names a reply code whose text may be replaced: a
  number from 401 to 599.
-/
def IsTextKey
    (key : String) : Prop :=
  ∃ n ∈ Decimal.readWord? 32 key.toList,
    401 ≤ n ∧ n ≤ 599

instance
    (key : String) :
    Decidable (IsTextKey key) :=
  match h : Decimal.readWord? 32 key.toList with
  | none => isFalse (by rw [IsTextKey, h]; simp)
  | some n =>
      decidable_of_iff (401 ≤ n ∧ n ≤ 599)
        (by rw [IsTextKey, h]; simp)

/- The keys of the reply texts that name no such code. -/
def unknownKeys
    (settings : Settings) : List String :=
  (settings.smtpd.codes.map Prod.fst).filter
    (¬ IsTextKey ·)

/- Keep only the reply texts whose keys name such a code. -/
def keepTextKeys
    (settings : Settings) : Settings :=
  { settings with
    smtpd := { settings.smtpd with
      codes := settings.smtpd.codes.filter
        (IsTextKey ·.1) } }

/-
  The settings that a text holds, with the keys that were
  passed over. There are none if the text is no document or
  does not fit.
-/
def parse?
    (text : String) : Option (Settings × List String) := do
  let root ← Toml.parse? text
  let settings ← decode? root
  return (settings.keepTextKeys, settings.unknownKeys)

end MailFilter.Settings
