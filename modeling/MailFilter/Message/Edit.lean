import MailFilter.Message.Basic

/-
  This file defines the changes that can be made to the
  header of a message.

  Key definitions include:
    * `Message.Edit`
    * `Message.Edit.apply`
    * `Message.Edit.removed?`
-/

namespace MailFilter.Message

/- A change of the header. -/
inductive Edit where
  | append (name value : String)
  | prepend (name value : String)
  | set (name value : String)
  | remove (name : String)
deriving DecidableEq, Repr

namespace Edit

/- Make a change. -/
def apply
    (edit : Edit)
    (message : Message) : Message :=
  match edit with
  | append name value => message.appendHeader name value
  | prepend name value => message.prependHeader name value
  | set name value => message.setHeader name value
  | remove name => message.removeHeader name

/-
  How many fields a change removes, if removing fields is
  what it is for.
-/
def removed?
    (edit : Edit)
    (message : Message) : Option Nat :=
  match edit with
  | remove name => some (message.countHeader name)
  | _ => none

end Edit

end MailFilter.Message
