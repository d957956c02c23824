import MailFilter.Text.Utf8
import MailFilter.Text.Blank
import MailFilter.Text.Fold

/-
  This file defines the header fields of a message and how
  one is read from the start of a byte string.

  A field is a line with the lines that continue it, which
  start with a space or a tab. Its name ends at the first
  colon. Spaces after the colon are not part of the value,
  and line endings after the value are not either. A line
  without a colon is a name, is not continued, and has an
  empty value.

  A field that was read keeps its bytes, and is written back
  as it was read until it is given another value.

  Key definitions include:
    * `Header`
    * `Header.isNamed`
    * `Header.setValue`
    * `Header.line`
    * `Header.ofLines`
    * `Header.take`
-/

namespace MailFilter

open Bytes

/-
  A header field, with the bytes it was read from if it was
  read and not changed since.
-/
structure Header where
  name : String
  value : String
  raw : Option Bytes := none
deriving DecidableEq, Repr

namespace Header

------------------------------------------------------------
-- Names and values
------------------------------------------------------------

/- The field has the name, up to case. -/
def isNamed
    (header : Header)
    (name : String) : Bool :=
  Text.sameName header.name name

/- Give the field another value. -/
def setValue
    (header : Header)
    (value : String) : Header :=
  { header with value := value, raw := none }

/- The bytes of the field without its line ending. -/
def line
    (header : Header) : Bytes :=
  header.raw.getD
    (Utf8.encode (header.name ++ ": " ++ header.value))

------------------------------------------------------------
-- Reading one field
------------------------------------------------------------

/-
  Take the lines at the start that continue a field. The
  lines before them are given in reverse.
-/
def takeFolds
    (found : List Bytes)
    (data : Bytes) : Bytes × Bytes :=
  match data with
  | [] => (found.reverse.flatten, [])
  | b :: rest =>
      if isSpaceOrTab b then
        takeFolds ((splitLine (b :: rest)).1 :: found)
          (splitLine (b :: rest)).2
      else
        (found.reverse.flatten, b :: rest)
termination_by data.length
decreasing_by
  exact length_splitLine_lt (by simp)

/- Nothing is lost by taking continuation lines. -/
theorem takeFolds_append
    (found : List Bytes)
    (data : Bytes) :
    (takeFolds found data).1 ++ (takeFolds found data).2 =
      found.reverse.flatten ++ data := by
  fun_induction takeFolds found data with
  | case1 found => simp
  | case2 found b rest hBlank ih =>
      rw [ih]
      simp [splitLine_append]
  | case3 found b rest hBlank => simp

/-
  Take a field and the lines that continue it. A line without
  a colon is a field by itself.
-/
def takeLines
    (data : Bytes) : Bytes × Bytes :=
  if (splitLine data).1.contains colon then
    takeFolds [(splitLine data).1] (splitLine data).2
  else
    splitLine data

/- Nothing is lost by taking a field. -/
theorem takeLines_append
    (data : Bytes) :
    (takeLines data).1 ++ (takeLines data).2 = data := by
  unfold takeLines
  split
  · simp [takeFolds_append, splitLine_append]
  · exact splitLine_append data

theorem length_takeFolds_le
    (found : List Bytes)
    (data : Bytes) :
    (takeFolds found data).2.length ≤ data.length := by
  fun_induction takeFolds found data with
  | case1 found => simp
  | case2 found b rest hBlank ih =>
      have hShorter :=
        length_splitLine_lt (List.cons_ne_nil b rest)
      omega
  | case3 found b rest hBlank => simp

/- The rest after a field is hShorter. -/
theorem length_takeLines_lt
    {data : Bytes}
    (hData : data ≠ []) :
    (takeLines data).2.length < data.length := by
  have hShorter := length_splitLine_lt hData
  have hFolds :=
    length_takeFolds_le [(splitLine data).1] (splitLine data).2
  unfold takeLines
  split
  · omega
  · exact hShorter

/- Drop the line endings after a value. -/
def dropLineEnds
    (value : Bytes) : Bytes :=
  (value.reverse.dropWhile fun b => b == cr || b == lf).reverse

/- A name as text: each byte is one character. -/
def nameText
    (name : Bytes) : String :=
  String.ofList (name.map fun b => Char.ofNat b.toNat)

/- A value as text. -/
def valueText
    (value : Bytes) : String :=
  Text.trim (Utf8.decodeLossy value)

/-
  The field that consists of a name, what separates it from
  the value, and the value.
-/
def ofParts
    (name separator value : Bytes) : Header :=
  ⟨nameText name, valueText value,
    some (dropCr (name ++ separator ++ value))⟩

/-
  The field in its lines. A field whose value would start
  where the data ends has no bytes of its own.
-/
def ofLines
    (lines : Bytes) : Header :=
  let name := lines.takeWhile fun b => b != colon && b != lf
  match lines.drop name.length with
  | colon :: rest =>
      let value := rest.dropWhile (· == space)
      if value.isEmpty then ⟨nameText name, "", some []⟩
      else
        ofParts name (colon :: rest.takeWhile (· == space))
          (dropLineEnds value)
  | _ => ofParts name [] []

/- Take a field from the start of a byte string. -/
def take
    (data : Bytes) : Header × Bytes :=
  (ofLines (takeLines data).1, (takeLines data).2)

end Header

end MailFilter
