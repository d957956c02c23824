import MailFilter.Smtp.Receiver

/-
  This file defines how the fields that a received message
  lacks are added to it.

  The fields are put in front of the message. If the header
  block does not end in a blank line, one is put where the
  block stops.

  Key definitions include:
    * `Smtp.Completion`
    * `Smtp.Completion.fields`
    * `Smtp.Completion.apply`
-/

namespace MailFilter.Smtp

open World

/- What the added fields are made from. -/
structure Completion where
  hostname : String
  sender : Option String
deriving DecidableEq, Repr

namespace Completion

/- The fields that a header block lacks, with their names. -/
def missing
    (completion : Completion)
    (stamp : Stamp)
    (seen : Seen) : List (String × String) :=
  let host := completion.hostname
  let sender :=
    match completion.sender with
    | some sender => "<" ++ sender ++ ">"
    | none => "MAILER-DAEMON@" ++ host
  [ (seen.messageId, "Message-Id",
      "<" ++ stamp.unique ++ "@" ++ host ++ ">"),
    (seen.date, "Date", stamp.date),
    (seen.sender, "From", sender),
    (seen.recipient, "To", "undisclosed-recipients:;")
  ].filterMap fun (present, name, value) =>
    if present then none else some (name, value)

/- The lines of fields. -/
def fields
    (lineEnding : String)
    (missing : List (String × String)) : String :=
  String.join (missing.map fun (name, value) =>
    name ++ ": " ++ value ++ lineEnding)

/-
  Add to a received message what it lacks. Tells whether the
  spool file was written.
-/
def apply
    (completion : Completion)
    (queueDir : String)
    (received : Received) :
    Run (Except SpoolError Bool) := do
  if received.seen.IsComplete then return .ok false
  else
    match ← Spool.read received.path with
    | .error e => return .error e
    | .ok raw =>
        let stamp := (← get).stamp
        let eol := received.lineEnding
        let added :=
          fields eol (completion.missing stamp received.seen)
        let blank :=
          if received.seen.terminated then "" else eol
        let shown :=
          String.ofList (Text.trimEnd added.toList)
        say .debug
          ("Adding missing headers to " ++ received.path.render ++
            ": " ++ shown)
        match ←
          Spool.replace queueDir received.path
            [ Utf8.encode added,
              raw.take received.headerEnd,
              Utf8.encode blank,
              raw.drop received.headerEnd ] with
        | .error e => return .error e
        | .ok () => return .ok true

end Completion

end MailFilter.Smtp
