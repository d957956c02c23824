import MailFilter.World

/-
  This file defines what is done with spool files: making,
  writing, replacing, loading and removing them.

  Key definitions include:
    * `Spool.create`
    * `Spool.write`
    * `Spool.store`
    * `Spool.read`
    * `Spool.remove`
    * `Spool.replace`
    * `Spool.load`
-/

namespace MailFilter.Spool

open World

/- Carry out an operation on files, or name what failed. -/
def attempt
    (step : Step)
    (path : Path)
    (operation : Files → Except Fault Files) :
    Run (Except SpoolError Unit) :=
  fun w =>
    match operation w.files with
    | .ok files => (.ok (), { w with files := files })
    | .error fault => (.error ⟨step, path, fault⟩, w)

/- Make a new spool file in the queue directory. -/
def create
    (queueDir : String) : Run (Except SpoolError Path) :=
  fun w =>
    match w.files.create queueDir with
    | .ok (path, files) =>
        (.ok path, { w with files := files })
    | .error fault =>
        (.error ⟨.create, .named queueDir, fault⟩, w)

/- Read a spool file. -/
def read
    (path : Path) : Run (Except SpoolError Bytes) :=
  fun w =>
    match w.files.read path with
    | .ok content => (.ok content, w)
    | .error fault => (.error ⟨.read, path, fault⟩, w)

/- Write a spool file. -/
def write
    (path : Path)
    (content : Bytes) : Run (Except SpoolError Unit) :=
  attempt .write path (·.write path content)

/-
  Write a spool file and have its content kept. Either failure
  is one to write.
-/
def store
    (path : Path)
    (content : Bytes) : Run (Except SpoolError Unit) := do
  match ← write path content with
  | .error e => return .error e
  | .ok () => attempt .write path (·.sync path)

/-
  Remove a spool file. That it is gone already is logged, and
  no failure.
-/
def remove
    (path : Path) : Run Unit :=
  fun w =>
    match w.files.remove path with
    | .ok files =>
        say .trace ("Removed spool file " ++ path.render)
          { w with files := files }
    | .error fault =>
        say .error
          ("Failed to remove spool file " ++ path.render ++
            ": " ++ fault.text) w

/-
  Take back a temporary file that was not put to use. Nobody
  is told whether that worked.
-/
def discard
    (path : Path) : Run Unit :=
  fun w =>
    match w.files.remove path with
    | .ok files => ((), { w with files := files })
    | .error _ => ((), w)

/-
  Replace a spool file by the concatenation of parts.

  The parts are stored in a temporary file in the queue
  directory. Then the spool file is removed and the temporary
  file takes its path. If a step fails the temporary file is
  discarded.
-/
def replace
    (queueDir : String)
    (path : Path)
    (parts : List Bytes) : Run (Except SpoolError Unit) := do
  match ← create queueDir with
  | .error e => return .error e
  | .ok fresh =>
      match ← store fresh parts.flatten with
      | .error e =>
          discard fresh
          return .error e
      | .ok () =>
          match ← attempt .remove path (·.remove path) with
          | .error e =>
              discard fresh
              return .error e
          | .ok () =>
              match ←
                attempt .rename path (·.rename fresh path) with
              | .error e =>
                  discard fresh
                  return .error e
              | .ok () => return .ok ()

/- Read a spool file as a message. -/
def load
    (path : Path) : Run (Except LoadError Message) := do
  match ← read path with
  | .error e => return .error (.spool e)
  | .ok raw =>
      match Message.parse raw with
      | .error e => return .error (.parse e)
      | .ok message => return .ok message

end MailFilter.Spool
