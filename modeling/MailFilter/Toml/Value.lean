/-
  This file defines the values of a TOML document, and how
  tables are opened and filled.

  A table remembers how it came about, since that decides
  whether it may be opened or filled again.

  Key definitions include:
    * `Toml.Origin`
    * `Toml.Value`
    * `Toml.Entries.within?`
    * `Toml.Entries.openTable?`
    * `Toml.Entries.appendTable?`
    * `Toml.Entries.assign?`
-/

namespace MailFilter.Toml

------------------------------------------------------------
-- Values
------------------------------------------------------------

/- How a table came about. -/
inductive Origin where
  /- Written in braces. -/
  | braces
  /- Named by a header. -/
  | header
  /- Passed on the way to a header. -/
  | passed
  /- Passed on the way of a dotted key. -/
  | dotted
deriving DecidableEq, Repr

/-
  A value. Only what a reader of settings can tell apart is
  kept of floating point numbers and of times.
-/
inductive Value where
  | string (text : String)
  | integer (n : Int)
  | float
  | boolean (b : Bool)
  | datetime (text : String)
  | array (items : List Value)
  | table (origin : Origin) (entries : List (String × Value))
  | tables (items : List (List (String × Value)))

/- The entries of a table, in the order of their keys. -/
abbrev Entries :=
  List (String × Value)

namespace Entries

------------------------------------------------------------
-- Filling tables
------------------------------------------------------------

/- Give a key that is present another value. -/
def replace
    (entries : Entries)
    (key : String)
    (value : Value) : Entries :=
  entries.map fun entry =>
    if entry.1 == key then (key, value) else entry

/-
  Change the table that a path leads to. Tables that the path
  passes are made if they are missing. In an array of tables
  it goes on in the last one.
-/
def within?
    (change : Entries → Option Entries) :
    List String → Entries → Option Entries
  | [], entries => change entries
  | key :: path, entries =>
      match entries.lookup key with
      | none => do
          let inner ← within? change path []
          return entries ++ [(key, .table .passed inner)]
      | some (.table .braces _) => none
      | some (.table origin inner) => do
          let inner ← within? change path inner
          return entries.replace key (.table origin inner)
      | some (.tables items) => do
          let last ← items.getLast?
          let last ← within? change path last
          return entries.replace key
            (.tables (items.dropLast ++ [last]))
      | some _ => none

/-
  Open the table that a header names. Only a table that
  headers passed so far may be there already.
-/
def openTable?
    (path : List String)
    (key : String) : Entries → Option Entries :=
  within?
    (fun entries =>
      match entries.lookup key with
      | none => some (entries ++ [(key, .table .header [])])
      | some (.table .passed inner) =>
          some (entries.replace key (.table .header inner))
      | some _ => none)
    path

/- Add a table to the array of tables that a header names. -/
def appendTable?
    (path : List String)
    (key : String) : Entries → Option Entries :=
  within?
    (fun entries =>
      match entries.lookup key with
      | none => some (entries ++ [(key, .tables [[]])])
      | some (.tables items) =>
          some (entries.replace key (.tables (items ++ [[]])))
      | some _ => none)
    path

/-
  Give a dotted key a value. The tables it passes are new or
  were made by dotted keys, except that those before the last
  may also be ones that headers passed.
-/
def assign?
    (key : String)
    (value : Value) :
    List String → Entries → Option Entries
  | [], entries =>
      match entries.lookup key with
      | none => some (entries ++ [(key, value)])
      | some _ => none
  | step :: path, entries =>
      match entries.lookup step with
      | none => do
          let inner ← assign? key value path []
          return entries ++ [(step, .table .dotted inner)]
      | some (.table .dotted inner) => do
          let inner ← assign? key value path inner
          return entries.replace step (.table .dotted inner)
      | some (.table .passed inner) =>
          if path.isEmpty then none
          else do
            let inner ← assign? key value path inner
            return entries.replace step (.table .passed inner)
      | some (.tables items) =>
          if path.isEmpty then none
          else do
            let last ← items.getLast?
            let last ← assign? key value path last
            return entries.replace step
              (.tables (items.dropLast ++ [last]))
      | some _ => none

end Entries

end MailFilter.Toml
