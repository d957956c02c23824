import MailFilter.Net.Arrival

/-
  This file defines how the stream of a client is cut into
  command lines and messages.

  Command lines and the lines of a message have their own
  limits. What is left of a line that is too long is passed
  over in pieces, none of which is ever taken for a line.

  Key definitions include:
    * `Smtp.Ending`
    * `Smtp.Inbound`
    * `Smtp.readLine`
    * `Smtp.skipLine`
    * `Smtp.readCommand`
    * `Smtp.readMessage`
-/

namespace MailFilter.Smtp

open Bytes

------------------------------------------------------------
-- Streams
------------------------------------------------------------

/- What comes after the last byte of a stream. -/
inductive Ending where
  /- The client closes the connection. -/
  | closed
  /- Nothing ever comes. -/
  | stalled
  /- The connection fails. -/
  | failed (text : String)
deriving DecidableEq, Repr

/- What a client is going to send. -/
structure Inbound where
  data : Bytes
  ending : Ending := .closed
deriving DecidableEq

/- The stream of what arrives. -/
def Inbound.ofArrivals : List Net.Arrival → Inbound
  | [] => ⟨[], .closed⟩
  | .bytes data :: rest =>
      let rest := ofArrivals rest
      ⟨data ++ rest.data, rest.ending⟩
  | .stall :: _ => ⟨[], .stalled⟩
  | .failure text :: _ => ⟨[], .failed text⟩

------------------------------------------------------------
-- Lines
------------------------------------------------------------

/- What the first bytes of a stream hold. -/
inductive Cut where
  /- A line with its line feed. -/
  | line (text rest : Bytes)
  /- As many bytes as were asked for, and no line feed. -/
  | full (rest : Bytes)
  /- Fewer bytes than were asked for, and no line feed. -/
  | short (fragment : Bytes)
deriving DecidableEq

/-
  Look for a line feed among the next bytes. The bytes before
  are given in reverse.
-/
def cut
    (found : Bytes) : Nat → Bytes → Cut
  | 0, rest => .full rest
  | _ + 1, [] => .short found.reverse
  | room + 1, b :: rest =>
      if b == lf then .line (b :: found).reverse rest
      else cut (b :: found) room rest

/- What is left after a line is shorter. -/
theorem length_of_cut_line
    {found data text rest : Bytes}
    {room : Nat}
    (hResult : cut found room data = .line text rest) :
    rest.length < data.length := by
  induction room generalizing found data with
  | zero => simp [cut] at hResult
  | succ room ih =>
      cases data with
      | nil => simp [cut] at hResult
      | cons b data =>
          unfold cut at hResult
          split at hResult
          · simp only [Cut.line.injEq] at hResult
            simp [hResult.2]
          · have hShorter := ih hResult
            simp only [List.length_cons]
            omega

/- What is left after a full read is hShorter by its size. -/
theorem length_of_cut_full
    {found data rest : Bytes}
    {room : Nat}
    (hResult : cut found room data = .full rest) :
    rest.length + room = data.length := by
  induction room generalizing found data with
  | zero =>
      simp only [cut, Cut.full.injEq] at hResult
      simp [hResult]
  | succ room ih =>
      cases data with
      | nil => simp [cut] at hResult
      | cons b data =>
          unfold cut at hResult
          split at hResult
          · simp at hResult
          · have hShorter := ih hResult
            simp only [List.length_cons]
            omega

/- The result of reading a line. -/
inductive LineRead where
  | line (text : Bytes) (rest : Inbound)
  /- The line goes on. What was read of it is dropped. -/
  | tooLong (rest : Inbound)
  | ended (ending : Ending)
deriving DecidableEq

/-
  Read a line of at most `limit` bytes. What the client sent
  before it closed the connection counts as a line.
-/
def readLine
    (limit : Nat)
    (input : Inbound) : LineRead :=
  match cut [] limit input.data with
  | .line text rest => .line text { input with data := rest }
  | .full rest => .tooLong { input with data := rest }
  | .short fragment =>
      if input.ending = .closed ∧ fragment ≠ [] then
        .line fragment { input with data := [] }
      else
        .ended input.ending

/- What is left after a line is shorter. -/
theorem length_of_readLine_line
    {limit : Nat}
    {input rest : Inbound}
    {text : Bytes}
    (hResult : readLine limit input = .line text rest) :
    rest.data.length < input.data.length := by
  unfold readLine at hResult
  split at hResult
  next text' rest' hFound =>
    simp only [LineRead.line.injEq] at hResult
    rw [← hResult.2]
    exact length_of_cut_line hFound
  next => simp at hResult
  next fragment hFound =>
    split at hResult
    next hGiven =>
      simp only [LineRead.line.injEq] at hResult
      rw [← hResult.2]
      cases hContent : input.data with
      | nil =>
          rw [hContent] at hFound
          cases limit with
          | zero => simp [cut] at hFound
          | succ n =>
              simp only [cut, Cut.short.injEq] at hFound
              exact absurd hFound.symm (by simpa using hGiven.2)
      | cons b rest' => simp
    next => simp at hResult

/- What is left of a line that is too long is shorter. -/
theorem length_of_readLine_tooLong
    {limit : Nat}
    (hLimit : 0 < limit)
    {input rest : Inbound}
    (hResult : readLine limit input = .tooLong rest) :
    rest.data.length < input.data.length := by
  unfold readLine at hResult
  split at hResult
  next => simp at hResult
  next rest' hFound =>
    simp only [LineRead.tooLong.injEq] at hResult
    rw [← hResult]
    have hSize := length_of_cut_full hFound
    simp only
    omega
  next =>
    split at hResult <;> simp at hResult

/- The result of passing over the rest of a line. -/
inductive Skip where
  | through (rest : Inbound)
  | ended (ending : Ending)
deriving DecidableEq

/- Pass over the rest of a line, `limit` bytes at a time. -/
def skipLine
    (limit : Nat)
    (hLimit : 0 < limit)
    (input : Inbound) : Skip :=
  match _ : readLine limit input with
  | .line _ rest => .through rest
  | .tooLong rest => skipLine limit hLimit rest
  | .ended ending => .ended ending
termination_by input.data.length
decreasing_by
  rename_i hFound
  exact length_of_readLine_tooLong hLimit hFound

/- What is left after the rest of a line is shorter. -/
theorem length_of_skipLine
    {limit : Nat}
    {hLimit : 0 < limit}
    {input rest : Inbound}
    (hResult : skipLine limit hLimit input = .through rest) :
    rest.data.length < input.data.length := by
  fun_induction skipLine limit hLimit input with
  | case1 input text after hFound =>
      simp only [Skip.through.injEq] at hResult
      rw [← hResult]
      exact length_of_readLine_line hFound
  | case2 input after hFound ih =>
      have hShorter := length_of_readLine_tooLong hLimit hFound
      have hMore := ih hResult
      omega
  | case3 => simp at hResult

------------------------------------------------------------
-- Commands
------------------------------------------------------------

/- The longest command line, with its line ending. -/
def maxCommandLine : Nat :=
  512

/- The result of reading a command line. -/
inductive CommandRead where
  | line (text : Bytes) (rest : Inbound)
  /- The line was too long. Tells what came after it. -/
  | tooLong (after : Skip)
  | ended (ending : Ending)
deriving DecidableEq

/- Read a command line. -/
def readCommand
    (input : Inbound) : CommandRead :=
  match readLine maxCommandLine input with
  | .line text rest => .line text rest
  | .tooLong rest =>
      .tooLong (skipLine maxCommandLine (by decide) rest)
  | .ended ending => .ended ending

/- What is left after a command line is shorter. -/
theorem length_of_readCommand_line
    {input rest : Inbound}
    {text : Bytes}
    (hResult : readCommand input = .line text rest) :
    rest.data.length < input.data.length := by
  unfold readCommand at hResult
  split at hResult
  next hFound =>
    simp only [CommandRead.line.injEq] at hResult
    rw [← hResult.2]
    exact length_of_readLine_line hFound
  next => simp at hResult
  next => simp at hResult

/- What is left after a line that is too long is shorter. -/
theorem length_of_readCommand_tooLong
    {input rest : Inbound}
    (hResult : readCommand input = .tooLong (.through rest)) :
    rest.data.length < input.data.length := by
  unfold readCommand at hResult
  split at hResult
  next => simp at hResult
  next rest' hFound =>
    simp only [CommandRead.tooLong.injEq] at hResult
    have hFirst :=
      length_of_readLine_tooLong
        (show 0 < maxCommandLine by decide) hFound
    have hMore := length_of_skipLine hResult
    omega
  next => simp at hResult

------------------------------------------------------------
-- Messages
------------------------------------------------------------

/- The longest line of a message, with its line ending. -/
def maxDataLine : Nat :=
  1024 * 1024

/- The line ends the message. -/
def IsTerminator
    (line : Bytes) : Prop :=
  line = [dot, cr, lf] ∨ line = [dot, lf]

instance
    (line : Bytes) :
    Decidable (IsTerminator line) := by
  unfold IsTerminator
  infer_instance

/- The result of reading a message. -/
inductive MessageRead where
  /- The lines before the one that ends the message. -/
  | complete (lines : List Bytes) (rest : Inbound)
  /- The message ended, but had a line that was too long. -/
  | tooLong (rest : Inbound)
  | ended (ending : Ending)
deriving DecidableEq

/-
  Read lines up to the one that ends the message. Given are
  the lines before, in reverse, and whether one was too long.
-/
def readMessageFrom
    (lines : List Bytes)
    (overlong : Bool)
    (input : Inbound) : MessageRead :=
  match _ : readLine maxDataLine input with
  | .line text rest =>
      if IsTerminator text then
        if overlong then .tooLong rest
        else .complete lines.reverse rest
      else if overlong then
        readMessageFrom lines true rest
      else
        readMessageFrom (text :: lines) false rest
  | .tooLong rest =>
      match _ : skipLine maxDataLine (by decide) rest with
      | .through rest => readMessageFrom lines true rest
      | .ended ending => .ended ending
  | .ended ending => .ended ending
termination_by input.data.length
decreasing_by
  · rename_i hFound _ _
    exact length_of_readLine_line hFound
  · rename_i hFound _ _
    exact length_of_readLine_line hFound
  · rename_i hFound hSkip
    have hFirst :=
      length_of_readLine_tooLong
        (show 0 < maxDataLine by decide) hFound
    have hMore := length_of_skipLine hSkip
    omega

/- The stream that is left after a message. -/
def MessageRead.rest? : MessageRead → Option Inbound
  | .complete _ rest => some rest
  | .tooLong rest => some rest
  | .ended _ => none

/- What is left after a message is shorter. -/
theorem length_of_readMessageFrom
    {lines : List Bytes}
    {overlong : Bool}
    {input rest : Inbound}
    (hResult :
      (readMessageFrom lines overlong input).rest? = some rest) :
    rest.data.length < input.data.length := by
  fun_induction readMessageFrom lines overlong input with
  | case1 lines input text after hFound hEnds =>
      simp only [MessageRead.rest?, Option.some.injEq] at hResult
      rw [← hResult]
      exact length_of_readLine_line hFound
  | case2 lines overlong input text after hFound hEnds hFits =>
      simp only [MessageRead.rest?, Option.some.injEq] at hResult
      rw [← hResult]
      exact length_of_readLine_line hFound
  | case3 lines input text after hFound hOther ih =>
      have hShorter := length_of_readLine_line hFound
      have hMore := ih hResult
      omega
  | case4 lines overlong input text after hFound hOther hFits ih =>
      have hShorter := length_of_readLine_line hFound
      have hMore := ih hResult
      omega
  | case5 lines overlong input after hFound rest' hSkip ih =>
      have hFirst :=
        length_of_readLine_tooLong
          (show 0 < maxDataLine by decide) hFound
      have hMiddle := length_of_skipLine hSkip
      have hMore := ih hResult
      omega
  | case6 => simp [MessageRead.rest?] at hResult
  | case7 => simp [MessageRead.rest?] at hResult

/- Read the message that follows a DATA command. -/
def readMessage
    (input : Inbound) : MessageRead :=
  readMessageFrom [] false input

end MailFilter.Smtp
