import MailFilter.Chain.Module

/-
  This file defines how modules are found in libraries.

  A library is a file that is named after its module. It has
  to be one that can be opened, and has to have the entry
  point that modules start at.

  Key definitions include:
    * `Library`
    * `Library.path`
    * `Library.context?`
    * `Library.open?`
-/

namespace MailFilter

open World

/- What the loader finds at a path. -/
inductive Library where
  /- An entry point. -/
  | entry
      (run :
        Settings → Transaction → Files →
          Int × Transaction × Files)
  /- A library without the entry point. -/
  | noEntry (reason : String)
  /- Nothing that can be opened. -/
  | unusable (reason : String)

/-
  The loader: what there is at each path. As a function it
  finds the same there each time, so that libraries which come,
  go or change between two calls are left out.
-/
abbrev Loader :=
  String → Library

namespace Library

/- The path of the library of a module. -/
def path
    (name : String)
    (dir : Option String) : String :=
  let file := "lib" ++ name ++ ".so"
  match dir with
  | some dir => Path.join dir file
  | none => file

/-
  What an entry point works on. It may be handed no settings
  or no transaction, and has nothing to work on then.
-/
def context?
    (settings : Option Settings)
    (t : Option Transaction) : Option (Settings × Transaction) :=
  match settings, t with
  | some settings, some t => some (settings, t)
  | _, _ => none

/- Find a module in its library. -/
def open?
    (loader : Loader)
    (name : String)
    (dir : Option String) : Run (Except ModuleError Module) := do
  let path := path name dir
  say .debug ("Loading module " ++ name ++ " from " ++ path)
  match loader path with
  | .entry run =>
      return .ok { name := name, library := some path, run := run }
  | .noEntry reason => return .error (.missingEntry name reason)
  | .unusable reason => return .error (.load name reason)

end Library

end MailFilter
