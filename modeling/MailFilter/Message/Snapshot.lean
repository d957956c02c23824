import MailFilter.Message.Basic

/-
  This file defines snapshots of the headers of a message,
  and when two of them differ.

  A snapshot groups the values by name. Names are in lower
  case, groups are in the order in which their names first
  occur, and the values of a group are sorted. So the order
  of the headers never makes two snapshots differ.

  Key definitions include:
    * `Snapshot`
    * `Snapshot.take`
    * `Snapshot.isDirty`
-/

namespace MailFilter

/- The values of the headers by name, and their number. -/
structure Snapshot where
  groups : List (String × List String) := []
  count : Nat := 0
deriving DecidableEq, Repr

namespace Snapshot

/- Add a value to the group of its name. -/
def addValue
    (name value : String) :
    List (String × List String) → List (String × List String)
  | [] => [(name, [value])]
  | (other, values) :: rest =>
      if other = name then (other, value :: values) :: rest
      else (other, values) :: addValue name value rest

/- The headers by name in lower case. -/
def group
    (headers : List Header) : List (String × List String) :=
  headers.foldl
    (fun groups header =>
      addValue (Text.lower header.name) header.value groups)
    []

/- Bring values into order. -/
def sortValues
    (values : List String) : List String :=
  values.mergeSort fun a b => !(b < a)

/- The snapshot of a message, or of none. -/
def take : Option Message → Snapshot
  | none => {}
  | some message => {
      groups := (group message.headers).map fun (name, values) =>
        (name, sortValues values)
      count := message.headers.length
    }

/- The current snapshot no longer matches this one. -/
def isDirty
    (before current : Snapshot) : Bool :=
  before.count != current.count ||
    before.groups.length != current.groups.length ||
    current.groups.any fun (name, values) =>
      before.groups.lookup name != some values

end Snapshot

end MailFilter
