import MailFilter.Settings.Basic
import MailFilter.Text.Fold

/-
  This file defines how users are looked up by address.

  Key definitions include:
    * `UserRecord`
    * `LookupError`
    * `Lookup`
    * `Lookup.nobody`
    * `Lookup.ofUsers`
-/

namespace MailFilter

/- What is known about a user. -/
structure UserRecord where
  address : String
  attributes : Settings.Attributes
deriving DecidableEq, Repr

/- Why a user could not be looked up. -/
structure LookupError where
  address : String
  reason : String
deriving DecidableEq, Repr

/- The text of an error. -/
def LookupError.text
    (error : LookupError) : String :=
  "Lookup for " ++ error.address ++ " failed: " ++ error.reason

/-
  A backend that finds the user with an address. It may fail,
  or know no such user. As a function it gives the same answer
  each time. A backend whose answer changes between two calls,
  because its users do or because it fails only now and then,
  is not one of these.
-/
abbrev Lookup :=
  String → Except LookupError (Option UserRecord)

namespace Lookup

/- The backend that knows nobody. -/
def nobody : Lookup :=
  fun _ => .ok none

/-
  The backend that knows the given users. Addresses are
  compared up to case, and the last of equal ones counts.
-/
def ofUsers
    (users : List (String × Settings.Attributes)) : Lookup :=
  fun address =>
    let same := users.reverse.find? fun user =>
      Text.sameName user.1 address
    .ok (same.map fun user => ⟨address, user.2⟩)

end Lookup

end MailFilter
