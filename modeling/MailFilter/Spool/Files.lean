import MailFilter.Bytes
import MailFilter.Fault
import MailFilter.Spool.Path

/-
  This file defines the files that the filter works on.

  Every file has a number of its own and a stamp that tells
  when it was last written. A disk may refuse any kind of
  operation on any path, in which case nothing changes.

  Key definitions include:
    * `Step`
    * `File`
    * `Files`
    * `Files.file?`
    * `Files.read`
    * `Files.create`
    * `Files.write`
    * `Files.sync`
    * `Files.remove`
    * `Files.rename`
    * `Files.copy`
-/

namespace MailFilter

------------------------------------------------------------
-- Files
------------------------------------------------------------

/- The kinds of operations on files. -/
inductive Step where
  | create
  | read
  | write
  /- Have what was written kept for good. -/
  | sync
  | remove
  | rename
deriving DecidableEq, Repr

/-
  The verb of an operation. A file whose content cannot be
  kept counts as one that cannot be written.
-/
def Step.name : Step → String
  | .create => "create"
  | .read => "read"
  | .write | .sync => "write"
  | .remove => "remove"
  | .rename => "rename"

/-
  A file: its number, when it was last written, and what it
  holds.
-/
structure File where
  number : Nat
  stamp : Nat
  content : Bytes
deriving DecidableEq

/-
  All files, with the directories, links and devices there
  are, the next number and stamp to be given out, and what
  the disk refuses.
-/
structure Files where
  entries : List (Path × File) := []
  directories : List String := []
  links : List (Path × Path) := []
  /- Files that take everything and hold nothing. -/
  devices : List Path := []
  next : Nat := 0
  refusal : Step → Path → Option Fault := fun _ _ => none

namespace Files

------------------------------------------------------------
-- Views
------------------------------------------------------------

/- The file that a path leads to, links aside. -/
def file?
    (files : Files)
    (path : Path) : Option File :=
  files.entries.lookup path

/- Follow a link. -/
def resolve
    (files : Files)
    (path : Path) : Path :=
  (files.links.lookup path).getD path

/- There is a directory of that name. -/
def hasDirectory
    (files : Files)
    (path : Path) : Bool :=
  files.directories.contains path.render

/- There is something other than a directory at the path. -/
def hasOther
    (files : Files)
    (path : Path) : Bool :=
  (files.file? path).isSome || (files.links.lookup path).isSome ||
    files.devices.contains path

/- When the file at a path was last written. -/
def modified?
    (files : Files)
    (path : Path) : Option Nat :=
  (files.file? path).map File.stamp

/- What the file at a path holds. -/
def content?
    (files : Files)
    (path : Path) : Option Bytes :=
  (files.file? path).map File.content

/- The number of spool files in a directory. -/
def countIn
    (files : Files)
    (dir : String) : Nat :=
  files.entries.countP (·.1.isIn dir)

------------------------------------------------------------
-- Entries
------------------------------------------------------------

/- Let a path lead to a file. -/
def put
    (files : Files)
    (path : Path)
    (file : File) : Files :=
  { files with
    entries :=
      (path, file) :: files.entries.filter (·.1 != path) }

/- Let a path lead nowhere. -/
def drop
    (files : Files)
    (path : Path) : Files :=
  { files with
    entries := files.entries.filter (·.1 != path) }

/- A look-up among the entries of other paths. -/
theorem lookup_filter
    (entries : List (Path × File))
    (path other : Path) :
    (entries.filter (·.1 != path)).lookup other =
      if other = path then none else entries.lookup other := by
  induction entries with
  | nil => simp
  | cons entry rest ih =>
      obtain ⟨key, file⟩ := entry
      by_cases hKey : key = path
      · subst hKey
        by_cases hSame : other = key
        · simp [hSame] at ih ⊢
          exact ih
        · simp [hSame, List.lookup_cons] at ih ⊢
          simpa [beq_eq_false_iff_ne.mpr hSame] using ih
      · by_cases hSame : other = key
        · subst hSame
          simp [hKey]
        · simp [hKey, List.lookup_cons,
            beq_eq_false_iff_ne.mpr hSame, ih]

@[simp]
theorem file?_put
    (files : Files)
    (path other : Path)
    (file : File) :
    (files.put path file).file? other =
      if other = path then some file else files.file? other := by
  unfold file? put
  by_cases hSame : other = path
  · simp [hSame]
  · simp [List.lookup_cons, beq_eq_false_iff_ne.mpr hSame,
      lookup_filter, hSame]

@[simp]
theorem file?_drop
    (files : Files)
    (path other : Path) :
    (files.drop path).file? other =
      if other = path then none else files.file? other := by
  unfold file? drop
  exact lookup_filter files.entries path other

------------------------------------------------------------
-- Operations
------------------------------------------------------------

/- Read a file. -/
def read
    (files : Files)
    (path : Path) : Except Fault Bytes :=
  match files.refusal .read path with
  | some fault => .error fault
  | none =>
      match files.file? path with
      | some file => .ok file.content
      | none =>
          if files.hasDirectory path then .error .isDirectory
          else .error .noSuchFile

/- Make a new, empty spool file in a directory. -/
def create
    (files : Files)
    (dir : String) : Except Fault (Path × Files) :=
  let path := Path.spooled dir files.next
  match files.refusal .create path with
  | some fault => .error (.located fault path.render)
  | none =>
      if files.hasDirectory (.named dir) then
        let file : File := ⟨files.next, files.next, []⟩
        .ok (path,
          { files.put path file with next := files.next + 1 })
      else
        .error (.located .noSuchFile path.render)

/-
  Write the content of a file that was opened before. If the
  file is gone by now the content goes with it.
-/
def write
    (files : Files)
    (path : Path)
    (content : Bytes) : Except Fault Files :=
  match files.refusal .write path with
  | some fault =>
      -- Where nothing is to be written nothing is refused.
      if content.isEmpty then .ok files else .error fault
  | none =>
      match files.file? path with
      | none => .ok files
      | some file =>
          let file : File :=
            { file with content := content, stamp := files.next }
          .ok { files.put path file with next := files.next + 1 }

/- Have the content of a file kept for good. -/
def sync
    (files : Files)
    (path : Path) : Except Fault Files :=
  match files.refusal .sync path with
  | some fault => .error fault
  | none => .ok files

/- Remove a file. -/
def remove
    (files : Files)
    (path : Path) : Except Fault Files :=
  match files.refusal .remove path with
  | some fault => .error fault
  | none =>
      match files.file? path with
      | none => .error .noSuchFile
      | some _ => .ok (files.drop path)

/- Give a file another path. -/
def rename
    (files : Files)
    (source target : Path) : Except Fault Files :=
  match files.refusal .rename target with
  | some fault => .error fault
  | none =>
      match files.file? source with
      | none => .error .noSuchFile
      | some file => .ok ((files.drop source).put target file)

/-
  Change the content of a file in place. The stamp may be
  kept.
-/
def overwrite
    (files : Files)
    (path : Path)
    (content : Bytes)
    (keepStamp : Bool) : Files :=
  match files.file? path with
  | none => files
  | some file =>
      let stamp := if keepStamp then file.stamp else files.next
      let file : File :=
        { file with content := content, stamp := stamp }
      { files.put path file with next := files.next + 1 }

/- Copy a file over another one, which is made if missing. -/
def copy
    (files : Files)
    (source target : Path) : Except Fault Files :=
  match files.read source with
  | .error fault => .error fault
  | .ok content =>
      let target := files.resolve target
      if files.hasDirectory target then .error .isDirectory
      else if files.devices.contains target then .ok files
      else
        let number :=
          match files.file? target with
          | some file => file.number
          | none => files.next
        let file : File := ⟨number, files.next, content⟩
        .ok { files.put target file with next := files.next + 1 }

/- Rename a directory with the spool files in it. -/
def renameDirectory
    (files : Files)
    (source target : String) : Files :=
  { files with
    directories :=
      target :: files.directories.filter (· != source)
    entries := files.entries.map fun (path, file) =>
      (path.renamed source target, file) }

end Files

end MailFilter
