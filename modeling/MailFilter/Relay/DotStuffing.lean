import MailFilter.Bytes

/-
  This file defines how the lines of a message are made ready
  for sending.

  Each line ends in a carriage return and a line feed, and a
  line that starts with a dot gets a dot more, so that no
  line is taken for the one that ends the message.

  Key definitions include:
    * `Relay.stuffLine`
    * `Relay.dotStuff`
-/

namespace MailFilter.Relay

open Bytes

/- A line as it is sent. -/
def stuffLine
    (line : Bytes) : Bytes :=
  let content := chomp line
  let content :=
    if content.head? == some dot then dot :: content
    else content
  content ++ crlf

/- A message as it is sent, without the line that ends it. -/
def dotStuff
    (data : Bytes) : Bytes :=
  (lines data).flatMap stuffLine

/- The line that ends a message. -/
def terminator : Bytes :=
  dot :: crlf

end MailFilter.Relay
