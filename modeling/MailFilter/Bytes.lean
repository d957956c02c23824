/-
  This file defines byte strings and the lines they
  are made of.

  Lines end in a line feed. A line keeps its line feed,
  so that the lines of a byte string concatenate to it.

  Key definitions include:
    * `Bytes`
    * `Bytes.splitLine`
    * `Bytes.lines`
    * `Bytes.dropCr`
    * `Bytes.chomp`
    * `Bytes.EndsInLf`
-/

namespace MailFilter

/- A byte string. -/
abbrev Bytes :=
  List UInt8

namespace Bytes

------------------------------------------------------------
-- Single bytes
------------------------------------------------------------

/- Line feed. -/
@[match_pattern]
abbrev lf : UInt8 := 10

/- Carriage return. -/
@[match_pattern]
abbrev cr : UInt8 := 13

/- The space. -/
@[match_pattern]
abbrev space : UInt8 := 32

/- The horizontal tab. -/
@[match_pattern]
abbrev tab : UInt8 := 9

/- The full stop. -/
@[match_pattern]
abbrev dot : UInt8 := 46

/- The colon. -/
@[match_pattern]
abbrev colon : UInt8 := 58

/- The line ending of the wire. -/
abbrev crlf : Bytes :=
  [cr, lf]

/- A space or a tab. -/
def isSpaceOrTab
    (b : UInt8) : Bool :=
  b == space || b == tab

/- A printable ASCII byte other than the space. -/
def isGraphic
    (b : UInt8) : Bool :=
  33 ≤ b && b ≤ 126

/- Map the letters `A` to `Z` to lower case. -/
def toLower
    (b : UInt8) : UInt8 :=
  if 65 ≤ b && b ≤ 90 then b + 32 else b

------------------------------------------------------------
-- Lines
------------------------------------------------------------

/-
  Split off the first line, with its line feed if there is
  one.
-/
def splitLine
    (data : Bytes) : Bytes × Bytes :=
  match data.dropWhile (· != lf) with
  | [] => (data, [])
  | b :: rest => (data.takeWhile (· != lf) ++ [b], rest)

/- Nothing is lost by splitting off a line. -/
theorem splitLine_append
    (data : Bytes) :
    (splitLine data).1 ++ (splitLine data).2 = data := by
  have hWhole :
      data.takeWhile (· != lf) ++ data.dropWhile (· != lf) =
        data :=
    List.takeWhile_append_dropWhile
  unfold splitLine
  split
  next => simp
  next b rest hLater =>
    rw [hLater] at hWhole
    simpa using hWhole

/- The rest is shorter than what was split. -/
theorem length_splitLine_lt
    {data : Bytes}
    (hData : data ≠ []) :
    (splitLine data).2.length < data.length := by
  have hPositive := List.length_pos_iff.mpr hData
  have hWhole :
      data.takeWhile (· != lf) ++ data.dropWhile (· != lf) =
        data :=
    List.takeWhile_append_dropWhile
  unfold splitLine
  split
  next => simpa using hPositive
  next b rest hLater =>
    rw [hLater] at hWhole
    have hSize := congrArg List.length hWhole
    simp only [List.length_append, List.length_cons] at hSize
    simp only
    omega

/-
  The lines of a byte string, given the line under way and
  the lines before it, both in reverse.
-/
def linesFrom
    (line : Bytes)
    (done : List Bytes) : Bytes → List Bytes
  | [] =>
      if line.isEmpty then done.reverse
      else (line.reverse :: done).reverse
  | b :: rest =>
      if b == lf then
        linesFrom [] ((b :: line).reverse :: done) rest
      else
        linesFrom (b :: line) done rest

/- The lines of a byte string, each with its line feed. -/
def lines
    (data : Bytes) : List Bytes :=
  linesFrom [] [] data

theorem flatten_linesFrom
    (line : Bytes)
    (done : List Bytes)
    (data : Bytes) :
    (linesFrom line done data).flatten =
      done.reverse.flatten ++ line.reverse ++ data := by
  induction data generalizing line done with
  | nil =>
      cases line with
      | nil => simp [linesFrom]
      | cons b line => simp [linesFrom]
  | cons b rest ih =>
      unfold linesFrom
      split <;> simp [ih]

/- The lines concatenate to what they were taken from. -/
theorem flatten_lines
    (data : Bytes) :
    (lines data).flatten = data := by
  simp [lines, flatten_linesFrom]

/- The text ends in a line feed. -/
def EndsInLf
    (line : Bytes) : Prop :=
  line.getLast? = some lf

instance
    (line : Bytes) :
    Decidable (EndsInLf line) := by
  unfold EndsInLf
  infer_instance

/- Drop one carriage return at the end, if there is one. -/
def dropCr
    (line : Bytes) : Bytes :=
  if line.getLast? == some cr then line.dropLast else line

/-
  Drop the line ending, which is a line feed with at most
  one carriage return before it.
-/
def chomp
    (line : Bytes) : Bytes :=
  if line.getLast? == some lf then dropCr line.dropLast
  else line

/- The text ends in a carriage return and a line feed. -/
def endsInCrlf
    (line : Bytes) : Bool :=
  crlf.isSuffixOf line

end Bytes

end MailFilter
