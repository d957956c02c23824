import MailFilter.Delivery.Error
import MailFilter.Text.Decimal
import MailFilter.Text.Utf8

/-
  This file defines the replies of a relay and how they are
  read.

  A reply is one or more lines that start with the same code.
  A hyphen after the code tells that more lines follow, a
  space or the end of the line that none does.

  Key definitions include:
    * `Relay.Response`
    * `Relay.Response.Line`
    * `Relay.Response.readLine?`
    * `Relay.Response.parse`
    * `Relay.Response.parseAll`
    * `Relay.Response.require`
-/

namespace MailFilter.Relay

open Bytes

/- A complete reply. -/
structure Response where
  code : Nat
  lines : List String
deriving DecidableEq, Repr

namespace Response

------------------------------------------------------------
-- Reading
------------------------------------------------------------

/- A line of a reply. -/
structure Line where
  code : Nat
  /- No other line follows. -/
  last : Bool
  text : String
deriving DecidableEq, Repr

/- The text of a line that arrived. -/
def lineText
    (line : Bytes) : String :=
  Utf8.decodeLossy (chomp line)

/- Read the text of a line. -/
def readLine?
    (line : String) : Option Line :=
  match line.toList with
  | a :: b :: c :: rest =>
      match Decimal.read? [a, b, c] with
      | none => none
      | some code =>
          match rest with
          | [] => some ⟨code, true, ""⟩
          | mark :: text =>
              if mark == ' ' then
                some ⟨code, true, String.ofList text⟩
              else if mark == '-' then
                some ⟨code, false, String.ofList text⟩
              else
                none
  | _ => none

/-
  Read a reply, given the code and the texts of its lines so
  far, the texts in reverse. Gives nothing if the reply is
  not complete.
-/
def parseFrom
    (code : Option Nat)
    (texts : List String)
    (buffer : Bytes) :
    Except DeliveryError (Option (Response × Bytes)) :=
  if buffer.contains lf then
    let line := lineText (splitLine buffer).1
    let rest := (splitLine buffer).2
    match readLine? line with
    | none => .error (.malformedReply line)
    | some read =>
        if code.any (· != read.code) then
          .error (.malformedReply line)
        else
          let texts := read.text :: texts
          if read.last then
            .ok (some (⟨read.code, texts.reverse⟩, rest))
          else
            parseFrom (some read.code) texts rest
  else
    .ok none
termination_by buffer.length
decreasing_by
  apply length_splitLine_lt
  intro hEmpty
  simp_all

/-
  Read the first reply in a buffer. Gives the reply with what
  follows it, or nothing if the reply is not complete.
-/
def parse
    (buffer : Bytes) :
    Except DeliveryError (Option (Response × Bytes)) :=
  parseFrom none [] buffer

/- What is left after a reply is shorter. -/
theorem length_parseFrom_lt
    {code : Option Nat}
    {texts : List String}
    {buffer rest : Bytes}
    {response : Response}
    (hResult :
      parseFrom code texts buffer = .ok (some (response, rest))) :
    rest.length < buffer.length := by
  fun_induction parseFrom code texts buffer with
  | case1 => simp at hResult
  | case2 => simp at hResult
  | case3 code texts buffer hFull line left read _ _ texts' _ =>
      have hShorter : (splitLine buffer).2.length < buffer.length :=
        length_splitLine_lt (by intro hEmpty; simp_all)
      simp only [Except.ok.injEq, Option.some.injEq,
        Prod.mk.injEq] at hResult
      rw [← hResult.2]
      exact hShorter
  | case4 code texts buffer hFull line left read _ _ texts' _ ih =>
      have hShorter : (splitLine buffer).2.length < buffer.length :=
        length_splitLine_lt (by intro hEmpty; simp_all)
      exact Nat.lt_trans (ih hResult) hShorter
  | case5 => simp at hResult

/-
  Read replies one after the other. Gives each reply with the
  number of its bytes, the error that reading stopped at, if
  any, and what is left. The replies before are given in
  reverse.
-/
def parseAllFrom
    (found : List (Response × Nat))
    (buffer : Bytes) :
    List (Response × Nat) × Option DeliveryError × Bytes :=
  match _ : parse buffer with
  | .error e => (found.reverse, some e, buffer)
  | .ok none => (found.reverse, none, buffer)
  | .ok (some (response, rest)) =>
      let size := buffer.length - rest.length
      parseAllFrom ((response, size) :: found) rest
termination_by buffer.length
decreasing_by
  rename_i hFirst
  exact length_parseFrom_lt hFirst

/- Read all replies in a buffer. -/
def parseAll
    (buffer : Bytes) :
    List (Response × Nat) × Option DeliveryError × Bytes :=
  parseAllFrom [] buffer

------------------------------------------------------------
-- Meaning
------------------------------------------------------------

/- The texts of all lines with spaces between them. -/
def message
    (response : Response) : String :=
  " ".intercalate response.lines

/- Refuse a reply unless it has one of the codes. -/
def require
    (response : Response)
    (codes : List Nat) : Except DeliveryError Response :=
  if codes.contains response.code then .ok response
  else .error (.rejected response.code response.message)

end Response

end MailFilter.Relay
