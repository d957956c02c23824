/-
  This file defines what the system reports when a file or a
  connection cannot be used.

  Key definitions include:
    * `Fault`
    * `Fault.text`
-/

namespace MailFilter

/- A failure of the system. -/
inductive Fault where
  | noSuchFile
  | badDescriptor
  | isDirectory
  | connectionRefused
  | networkUnreachable
  | endOfFile
  | timedOut
  | brokenPipe
  | invalidText
  | other (text : String)
  /- A failure together with the path it concerns. -/
  | located (fault : Fault) (path : String)
deriving DecidableEq, Repr

namespace Fault

/- The text of a failure. -/
def text : Fault → String
  | .noSuchFile => "No such file or directory (os error 2)"
  | .badDescriptor => "Bad file descriptor (os error 9)"
  | .isDirectory => "Is a directory (os error 21)"
  | .connectionRefused => "Connection refused (os error 111)"
  | .networkUnreachable => "Network is unreachable (os error 101)"
  | .endOfFile => "unexpected end of file"
  | .timedOut => "timed out"
  | .brokenPipe => "broken pipe"
  | .invalidText => "stream did not contain valid UTF-8"
  | .other text => text
  | .located fault path =>
      fault.text ++ " at path \"" ++ path ++ "\""

end Fault

end MailFilter
