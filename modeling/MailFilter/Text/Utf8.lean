import MailFilter.Bytes

/-
  This file defines how text is written as UTF-8 and read
  back from it.

  Reading goes through `scan`, which yields one item for each
  character and one for each maximal ill-formed piece. Strict
  reading refuses every ill-formed piece, lossy reading puts
  a replacement character in its place. So both agree where
  strict reading succeeds.

  Key definitions include:
    * `Utf8.encode`
    * `Utf8.scan`
    * `Utf8.decode?`
    * `Utf8.decodeLossy`
-/

namespace MailFilter.Utf8

------------------------------------------------------------
-- Writing
------------------------------------------------------------

/- The bytes of a list of characters. -/
def encodeChars
    (text : List Char) : Bytes :=
  text.flatMap String.utf8EncodeChar

/- The bytes of a string. -/
def encode
    (text : String) : Bytes :=
  encodeChars text.toList

------------------------------------------------------------
-- Reading
------------------------------------------------------------

/-
  A sequence under way: how many bytes it still needs, the
  range in which the next one has to lie, and the value of
  the bits read so far.
-/
structure Partial where
  need : Nat
  low : UInt8
  high : UInt8
  value : Nat

/- What the first byte of a sequence can be. -/
inductive Lead where
  | char (c : Char)
  | opens (sequence : Partial)
  | illFormed

/-
  Read the first byte of a sequence. The ranges for the
  second byte leave out overlong forms, surrogates and all
  above U+10FFFF.
-/
def lead
    (b : UInt8) : Lead :=
  let bits := b.toNat
  if b < 0x80 then .char (Char.ofNat bits)
  else if b < 0xC2 then .illFormed
  else if b < 0xE0 then .opens ⟨1, 0x80, 0xBF, bits - 0xC0⟩
  else if b == 0xE0 then .opens ⟨2, 0xA0, 0xBF, 0⟩
  else if b == 0xED then .opens ⟨2, 0x80, 0x9F, 13⟩
  else if b < 0xF0 then .opens ⟨2, 0x80, 0xBF, bits - 0xE0⟩
  else if b == 0xF0 then .opens ⟨3, 0x90, 0xBF, 0⟩
  else if b < 0xF4 then .opens ⟨3, 0x80, 0xBF, bits - 0xF0⟩
  else if b == 0xF4 then .opens ⟨3, 0x80, 0x8F, 4⟩
  else .illFormed

/-
  Scan the bytes that follow a sequence under way. The items
  found before are given in reverse.
-/
def scanFrom
    (found : List (Option Char))
    (sequence : Option Partial) :
    Bytes → List (Option Char)
  | [] =>
      match sequence with
      | none => found.reverse
      | some _ => (none :: found).reverse
  | b :: rest =>
      match sequence with
      | some p =>
          if p.low ≤ b && b ≤ p.high then
            let value := p.value * 64 + (b.toNat - 0x80)
            if p.need ≤ 1 then
              scanFrom (some (Char.ofNat value) :: found)
                none rest
            else
              scanFrom found
                (some ⟨p.need - 1, 0x80, 0xBF, value⟩) rest
          else
            -- The sequence breaks off before this byte.
            match lead b with
            | .char c =>
                scanFrom (some c :: none :: found) none rest
            | .opens q => scanFrom (none :: found) (some q) rest
            | .illFormed =>
                scanFrom (none :: none :: found) none rest
      | none =>
          match lead b with
          | .char c => scanFrom (some c :: found) none rest
          | .opens q => scanFrom found (some q) rest
          | .illFormed => scanFrom (none :: found) none rest

/-
  One item for each character, and `none` for each maximal
  ill-formed piece.
-/
def scan
    (data : Bytes) : List (Option Char) :=
  scanFrom [] none data

/- The character that stands for an ill-formed piece. -/
def replacement : Char :=
  '\uFFFD'

/- Read bytes as characters, replacing what is ill-formed. -/
def decodeChars
    (data : Bytes) : List Char :=
  (scan data).map (·.getD replacement)

/- Read bytes as text, replacing what is ill-formed. -/
def decodeLossy
    (data : Bytes) : String :=
  String.ofList (decodeChars data)

/- Read bytes as text, if all of them are well-formed. -/
def decode?
    (data : Bytes) : Option String :=
  if (scan data).all Option.isSome then
    some (decodeLossy data)
  else
    none

/- Where strict reading succeeds, lossy reading agrees. -/
theorem decodeLossy_of_decode?
    {data : Bytes}
    {text : String}
    (hRead : decode? data = some text) :
    decodeLossy data = text := by
  unfold decode? at hRead
  split at hRead
  · simpa using hRead
  · simp at hRead

end MailFilter.Utf8
