/-
  This file defines the paths of files.

  Spool files are numbered in the order in which they were
  made, so that no two of them have the same path. The name
  of a spool file shows its number in six letters and digits.

  Key definitions include:
    * `Path`
    * `Path.render`
    * `Path.isIn`
-/

namespace MailFilter

/- A path. -/
inductive Path where
  | named (text : String)
  /- A spool file in a directory. -/
  | spooled (dir : String) (number : Nat)
deriving DecidableEq, Repr

namespace Path

/- The path that leads nowhere. -/
def empty : Path :=
  .named ""

/- The letters and digits of the names of spool files. -/
def alphabet : List Char :=
  "0123456789ABCDEFGHIJKLMNOPQRSTUVWXYZ".toList ++
    "abcdefghijklmnopqrstuvwxyz".toList

/- A number in letters and digits, of which it has `width`. -/
def suffix
    (number : Nat) : Nat → List Char
  | 0 => []
  | width + 1 =>
      suffix (number / alphabet.length) width ++
        [alphabet.getD (number % alphabet.length) '0']

/- The path of a file in a directory. -/
def join
    (dir file : String) : String :=
  if dir.isEmpty || dir.endsWith "/" then dir ++ file
  else dir ++ "/" ++ file

/- The text of a path. -/
def render : Path → String
  | .named text => text
  | .spooled dir number =>
      join dir ("spmfilter." ++ String.ofList (suffix number 6))

/- The path is that of a spool file in the directory. -/
def isIn
    (path : Path)
    (dir : String) : Bool :=
  match path with
  | .named _ => false
  | .spooled other _ => other == dir

/- Where a path leads when a directory is renamed. -/
def renamed
    (path : Path)
    (source target : String) : Path :=
  match path with
  | .named text => .named text
  | .spooled dir number =>
      .spooled (if dir = source then target else dir) number

end Path

end MailFilter
