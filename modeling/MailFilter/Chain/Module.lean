import MailFilter.Spool.Basic

/-
  This file defines modules: the filters that a message goes
  through one after the other.

  A module sees the settings, the transaction and the files,
  and may change the last two. It may change the message
  through the transaction, or write the spool file behind its
  back. In the second case the message is loaded again.

  Key definitions include:
    * `Module`
    * `Module.label`
    * `Module.invoke`
-/

namespace MailFilter

open World

/-
  A module with a name, the library it lives in unless it is
  part of the program, and what it does.
-/
structure Module where
  name : String
  library : Option String := none
  run :
    Settings → Transaction → Files → Int × Transaction × Files

namespace Module

/- A module shown with where it lives. -/
def label
    (m : Module) : String :=
  m.name ++ " (" ++ m.library.getD "in-process" ++ ")"

/- A module shown among others. -/
def listing
    (m : Module) : String :=
  "Module(" ++ m.label ++ ")"

/- Load the message again after the module wrote its file. -/
def reload
    (m : Module)
    (path : Path)
    (t : Transaction) : Run Transaction := do
  say .debug
    ("Module " ++ m.label ++ " modified " ++ path.render ++
      ", reloading message")
  match ← Spool.load path with
  | .ok message => return t.withMessage (some message)
  | .error e =>
      say .error
        ("Unable to reload message after module " ++ m.label ++
          ": " ++ e.text)
      return t

/-
  Run a module. If it succeeded and the spool file was
  written or removed meanwhile, the message is loaded again.
-/
def invoke
    (m : Module)
    (settings : Settings)
    (t : Transaction) : Run (Int × Transaction) := do
  let path := t.envelope.messageFile
  let files := (← get).files
  record
    (.invoked m.name m.library.isSome t (files.content? path))
  let (value, t, after) := m.run settings t files
  setFiles after
  if value = 0 ∧ after.modified? path ≠ files.modified? path then
    return (value, ← m.reload path t)
  else
    return (value, t)

/- Let go of a module. -/
def release
    (m : Module) : Run Unit :=
  say .trace ("Destroying module " ++ m.label)

end Module

end MailFilter
