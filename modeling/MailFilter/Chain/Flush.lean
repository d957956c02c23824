import MailFilter.Message.Snapshot
import MailFilter.Spool.Basic

/-
  This file defines how changes of the headers are written
  back to the spool file.

  The file is replaced by the new header block followed by
  the body as it is in the file, and only if the headers are
  not those of the snapshot any more.

  Key definitions include:
    * `Chain.replaceBlock`
    * `Chain.flush`
-/

namespace MailFilter.Chain

open World

/-
  Replace the header block of a spool file. The body is what
  the file holds from an offset on.
-/
def replaceBlock
    (queueDir : String)
    (path : Path)
    (block : Bytes)
    (bodyOffset : Nat) : Run (Except SpoolError Unit) := do
  match ← Spool.read path with
  | .error e => return .error e
  | .ok raw =>
      Spool.replace queueDir path [block, raw.drop bodyOffset]

/-
  Write the headers of a transaction if they differ from a
  snapshot. Tells whether the file was written.
-/
def flush
    (before : Snapshot)
    (settings : Settings)
    (t : Transaction) :
    Run (Except SpoolError Bool × Transaction) := do
  let path := t.envelope.messageFile
  match t.message with
  | none => return (.ok false, t)
  | some message =>
      if before.isDirty (.take (some message)) then
        say .debug
          ("Headers changed, rewriting " ++ path.render)
        match ←
          replaceBlock settings.global.queueDir path message.block
            message.bodyOffset with
        | .error e => return (.error e, t)
        | .ok () =>
            return (.ok true, t.withMessage (some message.rebase))
      else
        say .trace
          ("Headers unchanged, not rewriting " ++ path.render)
        return (.ok false, t)

end MailFilter.Chain
