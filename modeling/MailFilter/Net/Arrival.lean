import MailFilter.Bytes

/-
  This file defines what arrives on a connection.

  After the arrivals of a list the other side closes the
  connection.

  Key definitions include:
    * `Net.Arrival`
-/

namespace MailFilter.Net

/- What one read of a connection meets. -/
inductive Arrival where
  /- Some bytes. -/
  | bytes (data : Bytes)
  /- Nothing, for as long as one cares to wait. -/
  | stall
  /- A failure of the connection. -/
  | failure (text : String)
deriving DecidableEq, Repr

end MailFilter.Net
